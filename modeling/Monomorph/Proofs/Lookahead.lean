import Monomorph.Proofs.Grammar

/-!
# Reading One Character Ahead

How far the parser looks, and how it could have gone on.

The grammar here is the bare one, without what names mean: a name, or a name with
phrases between angle brackets. A text that is no sentence of it is refused at some
character, and two things are to be known of that place, neither of which follows
from what is accepted. What was read begins a sentence, and no sentence goes on with
the character that was found. The first is an invariant of reading, which carries
along how a text could be completed. For the second there is no need to look at
sentences. The parser never looks further than one character beyond what it has
read, so it stops at the same place in every text that agrees up to there
(`OneAhead`); and in a sentence it does not stop for a character at all (`Passes`),
though it may refuse what names mean.

Both are said of one reader after the other, for a name, for arguments and for an
expression. Arguments are read under a count of characters, which is first shown to
be no restriction (`Scope.readArgs_fuel`).

## Main definitions

* `Phrase`, `PhraseArgs`: Tokens that make an expression, or arguments, whatever
  their names mean.
* `Sentence`: Characters of the grammar.
* `Marks`: The characters that are tokens by themselves.
* `Spells`: Characters that are cut into tokens, whatever follows.
* `OneAhead`: What is promised of a reader: it reads tokens of a sort, can be
  continued where it stops, and looks one character ahead.
* `Passes`: A reader gets through, or refuses what names mean.

## Theorems

* `Text.exists_blanks`, `Text.skipBlanks_append`, `Text.skipBlanks_eq_self`,
  `Text.isNameChar_of_head_append`: Blanks before a text.
* `Marks.isNameChar`, `Marks.lexes`: A mark is in no name and is a token.
* `Spells.nil`, `Spells.name`, `Spells.append`, `Spells.blanks_append`,
  `Spells.append_blanks`: Characters put together, and blanks before and behind them.
* `Spells.mark`: A mark ends what stands before it.
* `Spells.sentence`: What spells a phrase is a sentence.
* `OneAhead.ok_skipBlanks`: What is read, with the blanks behind it.
* `OneAhead.ok_mark`: What is read, a mark, and what follows it.
* `OneAhead.length_lt`: Behind a mark there are fewer characters.
* `Passes.map`: What becomes of what is read does not matter.
* `Scope.readName_eq_error_iff`: What is not read as a name.
* `Scope.readArgs_of_error`, `Scope.readArgs_of_comma`, `Scope.readArgs_of_closing`,
  `Scope.readArgs_of_other`, `Scope.comma_or_closing`: How arguments are read, by what
  comes next.
* `Scope.readArgs_fuel`, `Scope.readArgs_comma`: Any fuel beyond the number of
  characters reads the same.
* `Scope.readArgs_ok`, `Scope.readArgs_unexpected`: The promise, for arguments.
* `Scope.readExpr_of_error`, `Scope.readExpr_of_opening`, `Scope.readExpr_of_bare`: How
  an expression is read, by what comes next.
* `Scope.applied_ne_unexpected`: Names are not refused for a character.
* `Scope.readExpr_ok`, `Scope.readExpr_unexpected`: The promise, one level further in.
* `Scope.readName_oneAhead`, `Scope.readExpr_oneAhead`: The promise, for names and for
  expressions.
* `Scope.readArgs_passes`, `Scope.readExpr_passes`: What is a phrase is got through.
-/

namespace Monomorph

mutual

/-- Tokens that make an expression: a bare name, or a name with arguments between
    angle brackets. What the names mean is not asked. -/
inductive Phrase : List Token → Prop
  | bare (name : String) : Phrase [.name name]
  | applied (name : String) (tokens : List Token) (hargs : PhraseArgs tokens) :
      Phrase (.name name :: .opening :: (tokens ++ [.closing]))

/-- Tokens that make arguments, with commas between them. There is at least one. -/
inductive PhraseArgs : List Token → Prop
  | one (tokens : List Token) (harg : Phrase tokens) : PhraseArgs tokens
  | more (tokens later : List Token) (harg : Phrase tokens) (hargs : PhraseArgs later) :
      PhraseArgs (tokens ++ .comma :: later)

end

/-- Characters that the grammar accepts, blanks between tokens not counting. -/
def Sentence (chars : List Char) : Prop :=
  ∃ tokens, Lexes chars tokens ∧ Phrase tokens

namespace Text

/-- Characters are blanks and what is left when these are skipped. -/
theorem exists_blanks (chars : List Char) :
    ∃ blanks, (∀ c ∈ blanks, isBlank c = true) ∧ chars = blanks ++ skipBlanks chars :=
  ⟨chars.takeWhile isBlank, fun _ hc => List.mem_takeWhile_imp hc,
    List.takeWhile_append_dropWhile.symm⟩

@[simp]
theorem skipBlanks_append (blanks rest : List Char) (hblanks : ∀ c ∈ blanks, isBlank c = true) :
    skipBlanks (blanks ++ rest) = skipBlanks rest :=
  List.dropWhile_append_of_pos hblanks

/-- What starts like something whose blanks have been skipped has none to skip. -/
theorem skipBlanks_eq_self (chars rest : List Char) (h : rest.head? = (skipBlanks chars).head?) :
    skipBlanks rest = rest := by
  cases rest with
  | nil => rfl
  | cons c more =>
      rcases List.head?_eq_some_iff.mp h.symm with ⟨tail, htail⟩
      exact skipBlanks_cons c more (isBlank_of_skipBlanks_eq_cons chars tail c htail)

/-- What starts with blanks, or with a character that is in no name, starts with a
    character that is in no name. -/
theorem isNameChar_of_head_append (blanks rest : List Char)
    (hblanks : ∀ c ∈ blanks, isBlank c = true)
    (hrest : ∀ c ∈ rest.head?, isNameChar c = false) :
    ∀ c ∈ (blanks ++ rest).head?, isNameChar c = false := by
  cases blanks with
  | nil => exact hrest
  | cons b blanks =>
      -- The first blank comes first.
      exact isNameChar_of_head_cons b _ (isNameChar_of_isBlank b (hblanks b List.mem_cons_self))

end Text

/-- The characters that are tokens by themselves. -/
inductive Marks : Char → Token → Prop
  | opening : Marks '<' .opening
  | comma : Marks ',' .comma
  | closing : Marks '>' .closing

namespace Marks

theorem isNameChar {c : Char} {mark : Token} (h : Marks c mark) : Text.isNameChar c = false := by
  cases h <;> decide +kernel

theorem lexes {c : Char} {mark : Token} (h : Marks c mark) (rest : List Char)
    (later : List Token) (hrest : Lexes rest later) : Lexes (c :: rest) (mark :: later) := by
  cases h with
  | opening => exact .opening rest later hrest
  | comma => exact .comma rest later hrest
  | closing => exact .closing rest later hrest

end Marks

/-- The characters are cut into the tokens, whatever follows, unless that could make
    their last name longer. -/
def Spells (chars : List Char) (tokens : List Token) : Prop :=
  ∀ rest later, (∀ c ∈ rest.head?, Text.isNameChar c = false) → Lexes rest later →
    Lexes (chars ++ rest) (tokens ++ later)

namespace Spells

variable {chars chars' : List Char} {tokens tokens' : List Token}

theorem nil : Spells [] [] :=
  fun _ _ _ hrest => hrest

theorem blanks_append (h : Spells chars tokens) (blanks : List Char)
    (hblanks : ∀ c ∈ blanks, Text.isBlank c = true) : Spells (blanks ++ chars) tokens := by
  intro rest later hend hrest
  rw [List.append_assoc]
  induction blanks with
  | nil => exact h rest later hend hrest
  | cons c blanks ih =>
      exact .blank c _ _ (hblanks c List.mem_cons_self)
        (ih fun b hb => hblanks b (List.mem_cons_of_mem c hb))

theorem name (text : String) (h : Text.IsName text) : Spells text.toList [.name text] :=
  fun rest later hend hrest => .name text rest later h hend hrest

/-- One after the other, where the second does not go on with a name. -/
theorem append (h : Spells chars tokens) (h' : Spells chars' tokens')
    (hhead : ∀ c ∈ chars'.head?, Text.isNameChar c = false) :
    Spells (chars ++ chars') (tokens ++ tokens') := by
  intro rest later hend hrest
  rw [List.append_assoc, List.append_assoc]
  refine h _ _ ?_ (h' rest later hend hrest)
  -- If the second is empty, then what follows it comes next.
  cases chars' with
  | nil => exact hend
  | cons c more => exact hhead

theorem append_blanks (h : Spells chars tokens) (blanks : List Char)
    (hblanks : ∀ c ∈ blanks, Text.isBlank c = true) : Spells (chars ++ blanks) tokens := by
  have hboth := h.append (nil.blanks_append blanks hblanks)
  simp only [List.append_nil] at hboth
  exact hboth fun c hc => Text.isNameChar_of_isBlank c (hblanks c (List.mem_of_mem_head? hc))

/-- A mark, with blanks before it, ends what stands there. -/
theorem mark {c : Char} {mark : Token} (hmark : Marks c mark) (blanks : List Char)
    (hblanks : ∀ c ∈ blanks, Text.isBlank c = true) (h : Spells chars tokens)
    (h' : Spells chars' tokens') :
    Spells (chars ++ (blanks ++ c :: chars')) (tokens ++ mark :: tokens') := by
  have hmarked : Spells (c :: chars') (mark :: tokens') :=
    fun rest later hend hrest => hmark.lexes _ _ (h' rest later hend hrest)
  refine h.append (hmarked.blanks_append blanks hblanks) ?_
  exact Text.isNameChar_of_head_append blanks _ hblanks
    (Text.isNameChar_of_head_cons c chars' hmark.isNameChar)

theorem sentence (h : Spells chars tokens) (hphrase : Phrase tokens) : Sentence chars := by
  have hlex := h [] [] (fun c hc => absurd hc (Option.not_mem_none c)) .nil
  rw [List.append_nil, List.append_nil] at hlex
  exact ⟨tokens, hlex, hphrase⟩

end Spells

/-- What is promised of a reader for tokens of a sort. What it reads spells such
    tokens. Where it stops for a character or for the end, what it has read can be
    continued to such tokens. Either way it does the same on every text that agrees up
    to the first character that is left. -/
structure OneAhead {α : Type} (sort : List Token → Prop)
    (reader : List Char → Except Stop (α × List Char)) : Prop where
  ok : ∀ chars a rest, reader chars = .ok (a, rest) →
    ∃ read tokens, chars = read ++ rest ∧ sort tokens ∧ Spells read tokens ∧
      ∀ rest', rest'.head? = rest.head? → reader (read ++ rest') = .ok (a, rest')
  unexpected : ∀ chars rest, reader chars = .error (.unexpected rest) →
    ∃ read more tokens, chars = read ++ rest ∧ sort tokens ∧ Spells (read ++ more) tokens ∧
      ∀ rest', rest'.head? = rest.head? → reader (read ++ rest') = .error (.unexpected rest')

namespace OneAhead

variable {α : Type} {sort : List Token → Prop} {reader : List Char → Except Stop (α × List Char)}
  {a : α} {chars mid : List Char}

/-- The blanks behind what is read can be skipped, and that needs to look no further
    than the character behind them. -/
theorem ok_skipBlanks (hreader : OneAhead sort reader) (h : reader chars = .ok (a, mid)) :
    ∃ read blanks tokens, chars = read ++ (blanks ++ Text.skipBlanks mid) ∧ sort tokens ∧
      Spells read tokens ∧ (∀ c ∈ blanks, Text.isBlank c = true) ∧
      ∀ rest', rest'.head? = (Text.skipBlanks mid).head? →
        reader (read ++ (blanks ++ rest')) = .ok (a, blanks ++ rest') ∧
          Text.skipBlanks (blanks ++ rest') = rest' := by
  rcases hreader.ok chars a mid h with ⟨read, tokens, hchars, hsort, hspells, hagain⟩
  rcases Text.exists_blanks mid with ⟨blanks, hblanks, hmid⟩
  refine ⟨read, blanks, tokens, hmid ▸ hchars, hsort, hspells, hblanks, fun rest' hhead => ⟨?_, ?_⟩⟩
  · -- What is left starts with the same blank, or where there is none with the same
    -- character.
    refine hagain _ ?_
    rw [hmid, List.head?_append, List.head?_append, hhead]
  · rw [Text.skipBlanks_append blanks rest' hblanks, Text.skipBlanks_eq_self mid rest' hhead]

/-- Behind what is read a mark comes, and then characters of their own. Together they
    are read as one, and the mark is found again whatever follows them. -/
theorem ok_mark (hreader : OneAhead sort reader) {c : Char} {mark : Token}
    (hmark : Marks c mark) (h : reader chars = .ok (a, mid)) {read' more rest : List Char}
    {tokens' : List Token} (hskip : Text.skipBlanks mid = c :: (read' ++ rest))
    (hspells' : Spells (read' ++ more) tokens') :
    ∃ read tokens, chars = read ++ rest ∧ sort tokens ∧
      Spells (read ++ more) (tokens ++ mark :: tokens') ∧
      ∀ rest', ∃ mid', reader (read ++ rest') = .ok (a, mid') ∧
        Text.skipBlanks mid' = c :: (read' ++ rest') := by
  rcases hreader.ok_skipBlanks h with
    ⟨read, blanks, tokens, hchars, hsort, hspells, hblanks, hagain⟩
  rw [hskip] at hchars hagain
  have hassoc : ∀ later, read ++ (blanks ++ c :: read') ++ later =
      read ++ (blanks ++ c :: (read' ++ later)) := by
    intro later
    simp only [List.append_assoc, List.cons_append]
  refine ⟨read ++ (blanks ++ c :: read'), tokens, hchars.trans (hassoc rest).symm, hsort, ?_,
    fun rest' => ⟨blanks ++ c :: (read' ++ rest'), ?_⟩⟩
  · rw [hassoc]
    exact hspells.mark hmark blanks hblanks hspells'
  · rw [hassoc]
    exact hagain _ rfl

theorem length_lt (hreader : OneAhead sort reader) (h : reader chars = .ok (a, mid)) (c : Char)
    (tail : List Char) (hskip : Text.skipBlanks mid = c :: tail) : tail.length < chars.length := by
  rcases hreader.ok_skipBlanks h with ⟨read, blanks, _, hchars, _⟩
  rw [hchars, hskip, List.length_append, List.length_append, List.length_cons]
  omega

end OneAhead

/-- A reader leaves what is cut into the later tokens, or refuses what names mean. It
    does not stop for a character or for the end. -/
inductive Passes {α : Type} (later : List Token) : Except Stop (α × List Char) → Prop
  | ok (a : α) (rest : List Char) (hrest : Lexes rest later) : Passes later (.ok (a, rest))
  | refused (stop : Stop) (hstop : ∀ rest, stop ≠ .unexpected rest) : Passes later (.error stop)

theorem Passes.map {α β : Type} {later : List Token} {outcome : Except Stop (α × List Char)}
    (h : Passes later outcome) (f : α → β) :
    Passes later (outcome.map fun pair => (f pair.1, pair.2)) := by
  cases h with
  | ok a rest hrest => exact .ok (f a) rest hrest
  | refused stop hstop => exact .refused stop hstop

namespace Scope

section Names

theorem readName_eq_error_iff (chars : List Char) (stop : Stop) :
    readName chars = .error stop ↔ stop = .unexpected (Text.skipBlanks chars) ∧
      ∀ c ∈ (Text.skipBlanks chars).head?, Text.isNameChar c = false := by
  -- A run of name characters is empty when the first is none.
  have hrun : (Text.skipBlanks chars).takeWhile Text.isNameChar = [] ↔
      ∀ c ∈ (Text.skipBlanks chars).head?, Text.isNameChar c = false := by
    cases Text.skipBlanks chars with
    | nil => simp
    | cons c rest => simp [List.takeWhile_cons]
  rw [← hrun]
  unfold readName
  simp only
  split
  · rename_i hnil
    simp only [hnil, Except.error.injEq, and_true]
    exact eq_comm
  · rename_i hne
    exact iff_of_false (by simp only [reduceCtorEq, not_false_eq_true]) fun h => hne h.2

/-- Names are read one character ahead. -/
theorem readName_oneAhead : OneAhead (fun tokens => ∃ name, tokens = [.name name]) readName where
  ok := by
    intro chars name rest h
    -- The name ends because of the character behind it, so any text with that one will do.
    rcases (readName_eq_ok_iff chars rest name).mp h with ⟨hname, hskip, hend⟩
    rcases Text.exists_blanks chars with ⟨blanks, hblanks, hchars⟩
    rw [hskip, ← List.append_assoc] at hchars
    refine ⟨blanks ++ name.toList, _, hchars, ⟨name, rfl⟩,
      (Spells.name name hname).blanks_append blanks hblanks, fun rest' hhead => ?_⟩
    refine (readName_eq_ok_iff _ rest' name).mpr ⟨hname, ?_, by rwa [hhead]⟩
    rw [List.append_assoc, Text.skipBlanks_append blanks _ hblanks, hname.skipBlanks_append]
  unexpected := by
    intro chars rest h
    rcases (readName_eq_error_iff chars _).mp h with ⟨hrest, hend⟩
    rw [Stop.unexpected.injEq] at hrest
    rcases Text.exists_blanks chars with ⟨blanks, hblanks, hchars⟩
    -- Any name would do to go on.
    have hx : Text.IsName "x" := by
      refine ⟨by decide, fun c hc => ?_⟩
      rw [show c = 'x' from List.mem_singleton.mp hc]
      decide +kernel
    refine ⟨blanks, ['x'], _, hrest ▸ hchars, ⟨"x", rfl⟩,
      (Spells.name "x" hx).blanks_append blanks hblanks, fun rest' hhead => ?_⟩
    rw [hrest] at hhead
    rw [readName_eq_error_iff, Text.skipBlanks_append blanks rest' hblanks,
      Text.skipBlanks_eq_self chars rest' hhead, hhead]
    exact ⟨rfl, hend⟩

end Names

section Arguments

variable {item : List Char → Except Stop (Expr × List Char)} {arg : Expr} {fuel : Nat}
  {chars mid tail : List Char}

theorem readArgs_of_error {stop : Stop} (h : item chars = .error stop) :
    readArgs item (fuel + 1) chars = .error stop := by
  rw [readArgs, h]
  rfl

theorem readArgs_of_comma (h : item chars = .ok (arg, mid))
    (hskip : Text.skipBlanks mid = ',' :: tail) :
    readArgs item (fuel + 1) chars =
      (readArgs item fuel tail).map fun more => (arg :: more.1, more.2) := by
  rw [readArgs, h]
  simp only [bind, Except.bind, hskip]
  cases readArgs item fuel tail <;> rfl

theorem readArgs_of_closing (h : item chars = .ok (arg, mid))
    (hskip : Text.skipBlanks mid = '>' :: tail) :
    readArgs item (fuel + 1) chars = .ok ([arg], tail) := by
  rw [readArgs, h]
  simp only [bind, Except.bind, hskip]

theorem readArgs_of_other (h : item chars = .ok (arg, mid))
    (hcomma : (Text.skipBlanks mid).head? ≠ some ',')
    (hclosing : (Text.skipBlanks mid).head? ≠ some '>') :
    readArgs item (fuel + 1) chars = .error (.unexpected (Text.skipBlanks mid)) := by
  rw [readArgs, h]
  simp only [bind, Except.bind]
  split
  · rename_i hskip
    exact absurd (by rw [hskip]; rfl) hcomma
  · rename_i hskip
    exact absurd (by rw [hskip]; rfl) hclosing
  · rfl

/-- Where arguments are read, a comma comes next, or a bracket, or neither. -/
theorem comma_or_closing (chars : List Char) :
    (∃ tail, chars = ',' :: tail) ∨ (∃ tail, chars = '>' :: tail) ∨
      (chars.head? ≠ some ',' ∧ chars.head? ≠ some '>') := by
  by_cases hcomma : chars.head? = some ','
  · exact Or.inl (List.head?_eq_some_iff.mp hcomma)
  · by_cases hclosing : chars.head? = some '>'
    · exact Or.inr (Or.inl (List.head?_eq_some_iff.mp hclosing))
    · exact Or.inr (Or.inr ⟨hcomma, hclosing⟩)

variable {sort : List Token → Prop}

/-- Any fuel beyond the number of characters reads the same. -/
theorem readArgs_fuel (hitem : OneAhead sort item) (fuel fuel' : Nat) (chars : List Char)
    (h : chars.length < fuel) (h' : chars.length < fuel') :
    readArgs item fuel chars = readArgs item fuel' chars := by
  -- Each argument takes one of the fuel and at least the comma behind it.
  induction fuel generalizing fuel' chars with
  | zero => exact absurd h (Nat.not_lt_zero _)
  | succ fuel ih =>
      rcases Nat.exists_eq_succ_of_ne_zero (Nat.ne_zero_of_lt h') with ⟨fuel', rfl⟩
      cases hread : item chars with
      | error stop => rw [readArgs_of_error hread, readArgs_of_error hread]
      | ok pair =>
          rcases comma_or_closing (Text.skipBlanks pair.2) with
            ⟨tail, hskip⟩ | ⟨tail, hskip⟩ | ⟨hcomma, hclosing⟩
          · have hlt := hitem.length_lt hread ',' tail hskip
            rw [readArgs_of_comma hread hskip, readArgs_of_comma hread hskip,
              ih fuel' tail (by omega) (by omega)]
          · rw [readArgs_of_closing hread hskip, readArgs_of_closing hread hskip]
          · rw [readArgs_of_other hread hcomma hclosing, readArgs_of_other hread hcomma hclosing]

theorem readArgs_comma (hitem : OneAhead sort item) (h : item chars = .ok (arg, mid))
    (hskip : Text.skipBlanks mid = ',' :: tail) :
    readArgs item (chars.length + 1) chars =
      (readArgs item (tail.length + 1) tail).map fun more => (arg :: more.1, more.2) := by
  have hlt := hitem.length_lt h ',' tail hskip
  rw [readArgs_of_comma h hskip, readArgs_fuel hitem _ (tail.length + 1) tail hlt (by omega)]

theorem readArgs_ok (hitem : OneAhead Phrase item) (chars : List Char) (args : List Expr)
    (rest : List Char) (h : readArgs item (chars.length + 1) chars = .ok (args, rest)) :
    ∃ read tokens, chars = read ++ rest ∧ PhraseArgs tokens ∧
      Spells read (tokens ++ [.closing]) ∧
      ∀ rest', readArgs item ((read ++ rest').length + 1) (read ++ rest') = .ok (args, rest') := by
  -- The fuel is counted by what is left, so the induction is on that and not on fuel.
  induction hn : chars.length using Nat.strong_induction_on generalizing chars args with
  | _ n ih =>
  subst hn
  rcases readArgs_cases item _ chars rest args h with
    ⟨arg, mid, hread, ⟨tail, later, hskip, _, rfl⟩ | ⟨hskip, rfl⟩⟩
  · rw [readArgs_comma hitem hread hskip, map_eq_ok_iff] at h
    rcases h with ⟨⟨later', rest'⟩, hlater, heq⟩
    simp only [Prod.mk.injEq, List.cons.injEq, true_and] at heq
    rcases heq with ⟨rfl, rfl⟩
    rcases ih _ (hitem.length_lt hread ',' tail hskip) tail later' hlater rfl with
      ⟨read', tokens', rfl, hargs, hspells', hagain'⟩
    rw [← List.append_nil read'] at hspells'
    rcases hitem.ok_mark .comma hread hskip hspells' with
      ⟨read, tokens, hchars, hphrase, hspells, hagain⟩
    refine ⟨read, tokens ++ .comma :: tokens', hchars, .more tokens tokens' hphrase hargs, ?_,
      fun rest'' => ?_⟩
    · rwa [List.append_nil, ← List.cons_append, ← List.append_assoc] at hspells
    · rcases hagain rest'' with ⟨mid', hread', hskip'⟩
      rw [readArgs_comma hitem hread' hskip', hagain' rest'']
      rfl
  · -- The last argument, and nothing between it and the bracket.
    have hnil : Spells ([] ++ []) [] := .nil
    rw [← List.nil_append rest] at hskip
    rcases hitem.ok_mark .closing hread hskip hnil with
      ⟨read, tokens, hchars, hphrase, hspells, hagain⟩
    refine ⟨read, tokens, hchars, .one tokens hphrase, ?_, fun rest' => ?_⟩
    · rwa [List.append_nil] at hspells
    · rcases hagain rest' with ⟨mid', hread', hskip'⟩
      exact readArgs_of_closing hread' hskip'

theorem readArgs_unexpected (hitem : OneAhead Phrase item) (chars rest : List Char)
    (h : readArgs item (chars.length + 1) chars = .error (.unexpected rest)) :
    ∃ read more tokens, chars = read ++ rest ∧ PhraseArgs tokens ∧
      Spells (read ++ more) (tokens ++ [.closing]) ∧
      ∀ rest', rest'.head? = rest.head? →
        readArgs item ((read ++ rest').length + 1) (read ++ rest') =
          .error (.unexpected rest') := by
  induction hn : chars.length using Nat.strong_induction_on generalizing chars with
  | _ n ih =>
  subst hn
  cases hread : item chars with
  | error stop =>
      -- The argument that is completed is the last one.
      rw [readArgs_of_error hread, Except.error.injEq] at h
      rw [h] at hread
      rcases hitem.unexpected chars rest hread with
        ⟨read, more, tokens, hchars, hphrase, hspells, hagain⟩
      refine ⟨read, more ++ ['>'], tokens, hchars, .one tokens hphrase, ?_,
        fun rest' hhead => readArgs_of_error (hagain rest' hhead)⟩
      rw [← List.append_assoc]
      exact hspells.mark .closing [] (fun c hc => absurd hc List.not_mem_nil) .nil
  | ok pair =>
      rcases pair with ⟨arg, mid⟩
      rcases comma_or_closing (Text.skipBlanks mid) with
        ⟨tail, hskip⟩ | ⟨tail, hskip⟩ | ⟨hcomma, hclosing⟩
      · -- What stops is further on, and is completed there.
        rw [readArgs_comma hitem hread hskip, map_eq_error_iff] at h
        rcases ih _ (hitem.length_lt hread ',' tail hskip) tail h rfl with
          ⟨read', more, tokens', rfl, hargs, hspells', hagain'⟩
        rcases hitem.ok_mark .comma hread hskip hspells' with
          ⟨read, tokens, hchars, hphrase, hspells, hagain⟩
        refine ⟨read, more, tokens ++ .comma :: tokens', hchars,
          .more tokens tokens' hphrase hargs, ?_, fun rest' hhead => ?_⟩
        · rwa [← List.cons_append, ← List.append_assoc] at hspells
        · rcases hagain rest' with ⟨mid', hread', hskip'⟩
          rw [readArgs_comma hitem hread' hskip', hagain' rest' hhead]
          rfl
      · rw [readArgs_of_closing hread hskip] at h
        exact absurd h (by simp only [reduceCtorEq, not_false_eq_true])
      · -- A bracket would have done in place of what comes.
        rw [readArgs_of_other hread hcomma hclosing, Except.error.injEq, Stop.unexpected.injEq] at h
        rcases hitem.ok_skipBlanks hread with
          ⟨read, blanks, tokens, hchars, hphrase, hspells, hblanks, hagain⟩
        rw [h] at hchars hagain hcomma hclosing
        refine ⟨read ++ blanks, ['>'], tokens, by rw [hchars, List.append_assoc],
          .one tokens hphrase, ?_, fun rest' hhead => ?_⟩
        · rw [List.append_assoc]
          exact hspells.mark .closing blanks hblanks .nil
        · rcases hagain rest' hhead with ⟨hread', hskip'⟩
          rw [List.append_assoc, readArgs_of_other hread' (by rwa [hskip', hhead])
            (by rwa [hskip', hhead]), hskip']

/-- Arguments that come next are got through if each of them is. -/
theorem readArgs_passes (hitem : OneAhead Phrase item)
    (hpasses : ∀ tokens later chars, Phrase tokens → Lexes chars (tokens ++ later) →
      later.head? ≠ some .opening → Passes later (item chars))
    (tokens later : List Token) (chars : List Char) (hargs : PhraseArgs tokens)
    (hlex : Lexes chars (tokens ++ .closing :: later)) :
    Passes later (readArgs item (chars.length + 1) chars) := by
  -- Again on what is left, which the fuel is counted by.
  induction hn : chars.length using Nat.strong_induction_on generalizing chars tokens with
  | _ n ih =>
  subst hn
  cases hargs with
  | one _ hphrase =>
      have hfirst := hpasses tokens _ chars hphrase hlex
        (by simp only [List.head?_cons, Option.some.injEq, reduceCtorEq, ne_eq, not_false_eq_true])
      generalize hread : item chars = outcome at hfirst
      cases hfirst with
      | ok arg mid hmid =>
          rcases Lexes.exists_startsAs mid _ later hmid with ⟨rest, hskip, hrest⟩
          rw [readArgs_of_closing hread hskip]
          exact .ok [arg] rest hrest
      | refused stop hstop =>
          rw [readArgs_of_error hread]
          exact .refused stop hstop
  | more first others hphrase hothers =>
      rw [List.append_assoc, List.cons_append] at hlex
      have hfirst := hpasses first _ chars hphrase hlex
        (by simp only [List.head?_cons, Option.some.injEq, reduceCtorEq, ne_eq, not_false_eq_true])
      generalize hread : item chars = outcome at hfirst
      cases hfirst with
      | ok arg mid hmid =>
          rcases Lexes.exists_startsAs mid _ _ hmid with ⟨tail, hskip, htail⟩
          rw [readArgs_comma hitem hread hskip]
          exact (ih _ (hitem.length_lt hread ',' tail hskip) others tail hothers htail rfl).map _
      | refused stop hstop =>
          rw [readArgs_of_error hread]
          exact .refused stop hstop

end Arguments

section Expressions

variable {scope : Scope} {levels : Nat} {chars mid tail : List Char} {name : String}

theorem readExpr_of_error {stop : Stop} (h : readName chars = .error stop) :
    scope.readExpr (levels + 1) chars = .error stop := by
  rw [readExpr, h]
  rfl

theorem readExpr_of_opening (h : readName chars = .ok (name, mid))
    (hskip : Text.skipBlanks mid = '<' :: tail) :
    scope.readExpr (levels + 1) chars =
      (readArgs (scope.readExpr levels) (tail.length + 1) tail).bind fun args =>
        (scope.applied name args.1).map fun e => (e, args.2) := by
  rw [readExpr, h]
  simp only [bind, Except.bind, hskip]
  cases readArgs (scope.readExpr levels) (tail.length + 1) tail with
  | error stop => rfl
  | ok args => cases scope.applied name args.1 <;> rfl

theorem readExpr_of_bare (h : readName chars = .ok (name, mid))
    (hskip : ∀ tail, Text.skipBlanks mid ≠ '<' :: tail) :
    scope.readExpr (levels + 1) chars = .ok (scope.leaf name, Text.skipBlanks mid) := by
  rw [readExpr, h]
  simp only [bind, Except.bind]

/-- What an applied name means is no matter of characters. -/
theorem applied_ne_unexpected (scope : Scope) (name : String) (args : List Expr)
    (rest : List Char) : scope.applied name args ≠ .error (.unexpected rest) := by
  unfold applied
  split
  · simp only [ne_eq, Except.error.injEq, reduceCtorEq, not_false_eq_true]
  · simp only
    split
    · simp only [ne_eq, reduceCtorEq, not_false_eq_true]
    · simp only [ne_eq, Except.error.injEq, reduceCtorEq, not_false_eq_true]

theorem readExpr_ok (hlevels : OneAhead Phrase (scope.readExpr levels)) (chars : List Char)
    (e : Expr) (rest : List Char) (h : scope.readExpr (levels + 1) chars = .ok (e, rest)) :
    ∃ read tokens, chars = read ++ rest ∧ Phrase tokens ∧ Spells read tokens ∧
      ∀ rest', rest'.head? = rest.head? →
        scope.readExpr (levels + 1) (read ++ rest') = .ok (e, rest') := by
  rcases readExpr_cases scope levels chars rest e h with
    ⟨name, mid, hname, ⟨tail, args, hskip, hargs, happlied⟩ | ⟨hskip, rfl, rfl⟩⟩
  · rcases readArgs_ok hlevels tail args rest hargs with
      ⟨read', tokens, rfl, hphrase, hspells', hagain'⟩
    rw [← List.append_nil read'] at hspells'
    rcases readName_oneAhead.ok_mark .opening hname hskip hspells' with
      ⟨read, _, hchars, ⟨head, rfl⟩, hspells, hagain⟩
    rw [List.append_nil] at hspells
    refine ⟨read, _, hchars, .applied head tokens hphrase, hspells, fun rest' _ => ?_⟩
    rcases hagain rest' with ⟨mid', hname', hskip'⟩
    rw [readExpr_of_opening hname' hskip', hagain' rest']
    simp only [Except.bind, happlied, Except.map]
  · -- Only here is a character seen that is not read: the one that is no bracket.
    rcases readName_oneAhead.ok_skipBlanks hname with
      ⟨read, blanks, _, rfl, ⟨head, rfl⟩, hspells, hblanks, hagain⟩
    refine ⟨read ++ blanks, _, by rw [List.append_assoc], .bare head,
      hspells.append_blanks blanks hblanks, fun rest' hhead => ?_⟩
    rcases hagain rest' hhead with ⟨hname', hskip'⟩
    rw [List.append_assoc, readExpr_of_bare hname' (fun tail htail => ?_), hskip']
    rw [hskip'] at htail
    rw [htail] at hhead
    rcases List.head?_eq_some_iff.mp hhead.symm with ⟨tail', htail'⟩
    exact hskip tail' htail'

theorem readExpr_unexpected (hlevels : OneAhead Phrase (scope.readExpr levels))
    (chars rest : List Char)
    (h : scope.readExpr (levels + 1) chars = .error (.unexpected rest)) :
    ∃ read more tokens, chars = read ++ rest ∧ Phrase tokens ∧ Spells (read ++ more) tokens ∧
      ∀ rest', rest'.head? = rest.head? →
        scope.readExpr (levels + 1) (read ++ rest') = .error (.unexpected rest') := by
  cases hname : readName chars with
  | error stop =>
      -- A name is missing, and one would have been enough.
      rw [readExpr_of_error hname, Except.error.injEq] at h
      rw [h] at hname
      rcases readName_oneAhead.unexpected chars rest hname with
        ⟨read, more, _, rfl, ⟨head, rfl⟩, hspells, hagain⟩
      exact ⟨read, more, _, rfl, .bare head, hspells,
        fun rest' hhead => readExpr_of_error (hagain rest' hhead)⟩
  | ok pair =>
      rcases pair with ⟨name, mid⟩
      by_cases hopening : ∃ tail, Text.skipBlanks mid = '<' :: tail
      · rcases hopening with ⟨tail, hskip⟩
        rw [readExpr_of_opening hname hskip, bind_eq_error_iff] at h
        rcases h with hargs | ⟨args, _, happlied⟩
        · -- What completes the arguments has the bracket that ends them.
          rcases readArgs_unexpected hlevels tail rest hargs with
            ⟨read', more, tokens, rfl, hphrase, hspells', hagain'⟩
          rcases readName_oneAhead.ok_mark .opening hname hskip hspells' with
            ⟨read, _, hchars, ⟨head, rfl⟩, hspells, hagain⟩
          refine ⟨read, more, _, hchars, .applied head tokens hphrase, hspells,
            fun rest' hhead => ?_⟩
          rcases hagain rest' with ⟨mid', hname', hskip'⟩
          rw [readExpr_of_opening hname' hskip', hagain' rest' hhead]
          rfl
        · rw [map_eq_error_iff] at happlied
          exact absurd happlied (applied_ne_unexpected scope name args.1 rest)
      · rw [readExpr_of_bare hname (fun tail htail => hopening ⟨tail, htail⟩)] at h
        exact absurd h (by simp only [reduceCtorEq, not_false_eq_true])

/-- Expressions are read one character ahead, however deep they are nested. -/
theorem readExpr_oneAhead (scope : Scope) (levels : Nat) :
    OneAhead Phrase (scope.readExpr levels) := by
  induction levels with
  | zero =>
      constructor
      · intro chars e rest h
        exact absurd h (by simp only [readExpr, reduceCtorEq, not_false_eq_true])
      · intro chars rest h
        exact absurd h (by simp only [readExpr, Except.error.injEq, reduceCtorEq,
          not_false_eq_true])
  | succ levels ih => exact ⟨readExpr_ok ih, readExpr_unexpected ih⟩

/-- An expression that comes next is got through. -/
theorem readExpr_passes (scope : Scope) (levels : Nat) (tokens later : List Token)
    (chars : List Char) (hphrase : Phrase tokens) (hlex : Lexes chars (tokens ++ later))
    (hlater : later.head? ≠ some .opening) : Passes later (scope.readExpr levels chars) := by
  induction levels generalizing tokens later chars with
  | zero =>
      refine .refused .tooDeep fun rest => ?_
      simp only [ne_eq, reduceCtorEq, not_false_eq_true]
  | succ levels ih =>
      cases hphrase with
      | bare name =>
          rcases readExpr_leaf scope levels chars name later hlex hlater with ⟨rest, hread, hrest⟩
          rw [hread]
          exact .ok _ rest hrest
      | applied name tokens hargs =>
          simp only [List.cons_append, List.append_assoc, List.nil_append] at hlex
          rcases readName_complete chars _ _ hlex with ⟨mid, hname, hmid⟩
          rcases Lexes.exists_startsAs mid _ _ hmid with ⟨tail, hskip, htail⟩
          rw [readExpr_of_opening hname hskip]
          have hall := readArgs_passes (readExpr_oneAhead scope levels) ih tokens later tail hargs
            htail
          generalize readArgs (scope.readExpr levels) (tail.length + 1) tail = outcome at hall
          cases hall with
          | ok args rest hrest =>
              -- Whether the declaration takes them is asked only now.
              change Passes later ((scope.applied name args).map _)
              cases happlied : scope.applied name args with
              | ok e => exact .ok e rest hrest
              | error stop =>
                  refine .refused stop fun rest hstop => ?_
                  rw [hstop] at happlied
                  exact applied_ne_unexpected scope name args rest happlied
          | refused stop hstop => exact .refused stop hstop

end Expressions

end Scope

end Monomorph
