import Mathlib.Data.List.Nodup
import Mathlib.Data.List.TakeWhile
import Monomorph.Proofs.Scope

/-!
# The Grammar of Type Arguments

The parser accepts a text exactly when the grammar does, and returns its tree.

The grammar is said in two layers, neither of which mentions the parser. A text
is cut into tokens (`Lexes`): runs of name characters as long as possible, the
three marks, and blanks, which count for nothing. Tokens derive an expression
(`Derives`), a bare name or a name with arguments between angle brackets. What a
name has to satisfy stands where the name is used, so an expression that is
derived is also one that means something.

The parser has no tokens. It reads characters and returns those that are left, so
its two halves are joined to the grammar through the tokens of what is left: if
the rest lexes as `later`, then what was read lexes as the tokens of the
expression followed by `later` (`readExpr_sound`), and the other way round
(`readExpr_complete`). Nothing has to be said about where in the text a token
ends.

A bare name is read together with the blanks behind it, to see that no bracket
follows. That is why completeness asks that `later` does not start with one, and
why it is enough to ask that.

## Main definitions

* `Text.IsName`: A text that is one run of name characters.
* `Token`: A name or a mark.
* `Lexes`: Characters cut into tokens.
* `Token.StartsAs`: Characters that start with a token.
* `Derives`, `DerivesArgs`: Tokens that derive an expression, or arguments.
* `Table.UniquelyNamed`: No two declarations share a name.
* `Scope.ofOwner`: The scope of a declaration under a limit, if there is one.

## Theorems

* `Text.exists_range_of_search`: What is found in a table of ranges is in one of them.
* `Text.isNameChar_of_isBlank`, `Text.isBlank_of_isNameChar`: No character is both
  blank and part of a name.
* `Text.isNameChar_of_head_cons`: What a character starts that is in no name.
* `Text.skipBlanks_cons`, `Text.skipBlanks_cons_of_isBlank`,
  `Text.isBlank_of_skipBlanks_eq_cons`, `Text.IsName.skipBlanks_append`: Which blanks
  are skipped.
* `Lexes.of_skipBlanks`, `Lexes.skipBlanks_iff`: Leading blanks count for nothing.
* `Lexes.exists_startsAs`, `Lexes.skipBlanks_of_nil`: What lexes to something starts
  with its first token, and what lexes to nothing is blank.
* `Lexes.length_le`, `DerivesArgs.length_le`: There are no more tokens than characters,
  and no more arguments than tokens.
* `Derives.exists_name`: An expression starts with a name.
* `findIdx?_eq_some_iff_of_nodup`, `Table.find?_eq_some_iff`: A name finds the
  declaration that has it.
* `Scope.readName_eq_ok_iff`, `Scope.readName_sound`, `Scope.readName_complete`: What
  is read as a name.
* `Scope.derives_leaf`, `Scope.leaf_of_mem`, `Scope.leaf_of_not_mem`: What a bare name
  means.
* `Scope.readArgs_sound`, `Scope.readExpr_sound`: What is read is derived from the
  tokens read.
* `Scope.skipBlanks_ne_opening`, `Scope.readExpr_leaf`: A bare name, and what follows.
* `Scope.readArgs_complete`, `Scope.readExpr_complete`: What is derived from the next
  tokens is read.
* `Scope.parse_eq_ok_iff`, `Scope.parse_eq_ok_iff_exists`: What a parse has to come
  through.
* `Scope.ofOwner_eq`: The scope of a declaration has the smaller of two limits.
* `Scope.parse_eq_ok_iff_derives`: A text is accepted with the tree it derives.
* `Shelf.parse_nested`: A text with blanks, two arguments and a parameter.
-/

namespace Monomorph

namespace Text

theorem exists_range_of_search (code : Nat) (ranges : List (Nat × Nat))
    (h : CharSet.search code ranges = true) :
    ∃ range ∈ ranges, range.1 ≤ code ∧ code ≤ range.2 := by
  induction ranges with
  | nil => exact absurd h (by simp only [CharSet.search, Bool.false_eq_true, not_false_eq_true])
  | cons range rest ih =>
      rw [CharSet.search] at h
      by_cases hlo : code < range.1
      · -- The ranges ascend, so the search ends at the first that is too high.
        rw [if_pos hlo] at h
        exact absurd h Bool.false_ne_true
      · rw [if_neg hlo] at h
        by_cases hhi : code ≤ range.2
        · exact ⟨range, List.mem_cons_self, by omega, hhi⟩
        · rw [if_neg hhi] at h
          rcases ih h with ⟨found, hfound, hbounds⟩
          exact ⟨found, List.mem_cons_of_mem _ hfound, hbounds⟩

/-- The two classes of characters have nothing in common. There are few blanks,
    so each of them is looked up among the letters and digits. -/
theorem isNameChar_of_isBlank (c : Char) (h : isBlank c = true) : isNameChar c = false := by
  have htable : ∀ range ∈ blanks.ranges, ∀ code ∈ List.range' range.1 (range.2 + 1 - range.1),
      CharSet.search code lettersAndDigits.ranges = false ∧ code ≠ '_'.toNat ∧
        code ≠ '.'.toNat := by
    decide +kernel
  rcases exists_range_of_search c.toNat blanks.ranges h with ⟨range, hrange, hlo, hhi⟩
  have hcode : c.toNat ∈ List.range' range.1 (range.2 + 1 - range.1) := by
    rw [List.mem_range'_1]
    omega
  rcases htable range hrange c.toNat hcode with ⟨hletter, hline, hpoint⟩
  have hneLine : (c == '_') = false := beq_eq_false_iff_ne.mpr fun hc => hline (by rw [hc])
  have hnePoint : (c == '.') = false := beq_eq_false_iff_ne.mpr fun hc => hpoint (by rw [hc])
  rw [isNameChar, hneLine, hnePoint, CharSet.contains, hletter]
  rfl

theorem isBlank_of_isNameChar (c : Char) (h : isNameChar c = true) : isBlank c = false := by
  by_contra hblank
  rw [Bool.not_eq_false] at hblank
  rw [isNameChar_of_isBlank c hblank] at h
  exact Bool.false_ne_true h

/-- What starts with a character that is in no name does not go on with one. -/
theorem isNameChar_of_head_cons (c : Char) (rest : List Char) (h : isNameChar c = false) :
    ∀ d ∈ (c :: rest).head?, isNameChar d = false := by
  intro d hd
  rw [List.head?_cons, Option.mem_some] at hd
  rwa [← hd]

/-- A text that is one run of name characters, and not an empty one. -/
structure IsName (text : String) : Prop where
  ne_nil : text.toList ≠ []
  isNameChar : ∀ c ∈ text.toList, isNameChar c = true

/-- A text that starts with something else than a blank has none to skip. -/
@[simp]
theorem skipBlanks_cons (c : Char) (rest : List Char) (h : isBlank c = false) :
    skipBlanks (c :: rest) = c :: rest := by
  unfold skipBlanks
  rw [List.dropWhile_cons_of_neg (by rw [h]; exact Bool.false_ne_true)]

@[simp]
theorem skipBlanks_cons_of_isBlank (c : Char) (rest : List Char) (h : isBlank c = true) :
    skipBlanks (c :: rest) = skipBlanks rest := by
  unfold skipBlanks
  rw [List.dropWhile_cons_of_pos h]

theorem isBlank_of_skipBlanks_eq_cons (chars rest : List Char) (c : Char)
    (h : skipBlanks chars = c :: rest) : isBlank c = false := by
  have hhead := List.head?_dropWhile_not isBlank chars
  rw [skipBlanks] at h
  rw [h] at hhead
  exact hhead

theorem IsName.skipBlanks_append (text : String) (h : IsName text) (rest : List Char) :
    skipBlanks (text.toList ++ rest) = text.toList ++ rest := by
  cases hchars : text.toList with
  | nil => exact absurd hchars h.ne_nil
  | cons c more =>
      have hc := h.isNameChar c (by rw [hchars]; exact List.mem_cons_self)
      rw [List.cons_append]
      exact skipBlanks_cons c _ (isBlank_of_isNameChar c hc)

end Text

/-- What a type argument is made of, blanks apart. -/
inductive Token where
  | name (text : String)
  | opening
  | comma
  | closing
deriving DecidableEq, Repr

/-- Characters cut into tokens. A name is as long as it can be: no name character
    follows it. Blanks count for nothing, and no other character may occur. -/
inductive Lexes : List Char → List Token → Prop
  | nil : Lexes [] []
  | blank (c : Char) (rest : List Char) (tokens : List Token) (hblank : Text.isBlank c = true)
      (hrest : Lexes rest tokens) : Lexes (c :: rest) tokens
  | name (text : String) (rest : List Char) (tokens : List Token) (hname : Text.IsName text)
      (hend : ∀ c ∈ rest.head?, Text.isNameChar c = false) (hrest : Lexes rest tokens) :
      Lexes (text.toList ++ rest) (.name text :: tokens)
  | opening (rest : List Char) (tokens : List Token) (hrest : Lexes rest tokens) :
      Lexes ('<' :: rest) (.opening :: tokens)
  | comma (rest : List Char) (tokens : List Token) (hrest : Lexes rest tokens) :
      Lexes (',' :: rest) (.comma :: tokens)
  | closing (rest : List Char) (tokens : List Token) (hrest : Lexes rest tokens) :
      Lexes ('>' :: rest) (.closing :: tokens)

/-- The token stands at the start of the characters, and the rest is behind it. A
    name is as long as it can be. -/
def Token.StartsAs (start rest : List Char) : Token → Prop
  | name text => Text.IsName text ∧ start = text.toList ++ rest ∧
      ∀ c ∈ rest.head?, Text.isNameChar c = false
  | opening => start = '<' :: rest
  | comma => start = ',' :: rest
  | closing => start = '>' :: rest

mutual

/-- Tokens that derive an expression: a bare name, which is a parameter if it is
    one of the formals and a literal otherwise, or the name of a registered
    declaration with as many arguments as it takes between angle brackets. -/
inductive Derives (t : Table) (formals : List String) : List Token → Expr → Prop
  | param (name : String) (hname : name ∈ formals) : Derives t formals [.name name] (.param name)
  | literal (name : String) (hname : name ∉ formals) :
      Derives t formals [.name name] (.literal name)
  | app (head : DeclId) (tokens : List Token) (args : List Expr) (hhead : head < t.size)
      (harity : args.length = (t.formals head).length)
      (hargs : DerivesArgs t formals tokens args) :
      Derives t formals (.name (t.name head) :: .opening :: (tokens ++ [.closing]))
        (.app head args)

/-- Tokens that derive arguments, with commas between them. There is at least
    one. -/
inductive DerivesArgs (t : Table) (formals : List String) : List Token → List Expr → Prop
  | one (tokens : List Token) (arg : Expr) (harg : Derives t formals tokens arg) :
      DerivesArgs t formals tokens [arg]
  | more (tokens later : List Token) (arg : Expr) (args : List Expr)
      (harg : Derives t formals tokens arg) (hargs : DerivesArgs t formals later args) :
      DerivesArgs t formals (tokens ++ .comma :: later) (arg :: args)

end

/-- No two declarations of the table share a name. -/
def Table.UniquelyNamed (t : Table) : Prop :=
  (t.entries.map Entry.name).Nodup

namespace Lexes

theorem of_skipBlanks (chars : List Char) (tokens : List Token)
    (h : Lexes (Text.skipBlanks chars) tokens) : Lexes chars tokens := by
  induction chars with
  | nil => exact h
  | cons c rest ih =>
      by_cases hblank : Text.isBlank c = true
      · exact blank c rest tokens hblank (ih (by simpa [hblank] using h))
      · -- The first character stays, and so do all others.
        simpa [hblank] using h

/-- Leading blanks count for nothing. -/
@[simp]
theorem skipBlanks_iff (chars : List Char) (tokens : List Token) :
    Lexes (Text.skipBlanks chars) tokens ↔ Lexes chars tokens := by
  constructor
  · exact of_skipBlanks chars tokens
  · intro h
    -- Only a blank is skipped; every other way to start is left as it is.
    induction h with
    | nil => exact nil
    | blank c rest tokens hblank _ ih => simpa [hblank] using ih
    | name text rest tokens hname hend hrest _ =>
        rw [hname.skipBlanks_append text rest]
        exact name text rest tokens hname hend hrest
    | opening rest tokens hrest _ => exact opening rest tokens hrest
    | comma rest tokens hrest _ => exact comma rest tokens hrest
    | closing rest tokens hrest _ => exact closing rest tokens hrest

/-- Characters that lex to something start with the first token, once blanks are
    skipped. -/
theorem exists_startsAs (chars : List Char) (token : Token) (later : List Token)
    (h : Lexes chars (token :: later)) :
    ∃ rest, token.StartsAs (Text.skipBlanks chars) rest ∧ Lexes rest later := by
  have hskip := (skipBlanks_iff chars (token :: later)).mpr h
  generalize hstart : Text.skipBlanks chars = start at hskip
  cases hskip with
  | blank c rest _ hblank _ =>
      -- After blanks have been skipped there is none.
      rw [Text.isBlank_of_skipBlanks_eq_cons chars rest c hstart] at hblank
      exact absurd hblank Bool.false_ne_true
  | name text rest _ hname hend hrest => exact ⟨rest, ⟨hname, rfl, hend⟩, hrest⟩
  | opening rest _ hrest => exact ⟨rest, rfl, hrest⟩
  | comma rest _ hrest => exact ⟨rest, rfl, hrest⟩
  | closing rest _ hrest => exact ⟨rest, rfl, hrest⟩

theorem skipBlanks_of_nil (chars : List Char) (h : Lexes chars []) :
    Text.skipBlanks chars = [] := by
  have hskip := (skipBlanks_iff chars []).mpr h
  generalize hstart : Text.skipBlanks chars = start at hskip
  cases hskip with
  | nil => rfl
  | blank c rest _ hblank _ =>
      rw [Text.isBlank_of_skipBlanks_eq_cons chars rest c hstart] at hblank
      exact absurd hblank Bool.false_ne_true

/-- Every token takes at least one character. -/
theorem length_le (chars : List Char) (tokens : List Token) (h : Lexes chars tokens) :
    tokens.length ≤ chars.length := by
  induction h with
  | nil => exact Nat.le_refl 0
  | blank _ _ _ _ _ ih =>
      rw [List.length_cons]
      omega
  | name text rest tokens hname _ _ ih =>
      -- A name has a character of its own.
      have hpos := List.length_pos_iff.mpr hname.ne_nil
      rw [List.length_cons, List.length_append]
      omega
  | opening _ _ _ ih => simpa only [List.length_cons, Nat.add_le_add_iff_right] using ih
  | comma _ _ _ ih => simpa only [List.length_cons, Nat.add_le_add_iff_right] using ih
  | closing _ _ _ ih => simpa only [List.length_cons, Nat.add_le_add_iff_right] using ih

end Lexes

/-- An expression starts with a name. -/
theorem Derives.exists_name (t : Table) (formals : List String) (tokens : List Token) (e : Expr)
    (h : Derives t formals tokens e) : ∃ name more, tokens = .name name :: more := by
  cases h with
  | param name _ => exact ⟨name, [], rfl⟩
  | literal name _ => exact ⟨name, [], rfl⟩
  | app head tokens _ _ _ _ => exact ⟨t.name head, _, rfl⟩

theorem DerivesArgs.length_le (t : Table) (formals : List String) (tokens : List Token)
    (args : List Expr) (h : DerivesArgs t formals tokens args) :
    args.length ≤ tokens.length := by
  induction args generalizing tokens with
  | nil => exact Nat.zero_le _
  | cons arg args ih =>
      cases h with
      | one _ _ harg =>
          rcases harg.exists_name with ⟨name, more, rfl⟩
          simp only [List.length_cons, List.length_nil]
          omega
      | more tokens later _ _ _ hargs =>
          have hle := ih later hargs
          rw [List.length_append, List.length_cons, List.length_cons]
          omega

/-- Where no two members share a text, the first one with a text is the only
    one. -/
theorem findIdx?_eq_some_iff_of_nodup {α : Type} (text : α → String) (items : List α)
    (hnodup : (items.map text).Nodup) (name : String) (id : Nat) :
    items.findIdx? (fun a => text a == name) = some id ↔
      ∃ a, items[id]? = some a ∧ text a = name := by
  rw [List.findIdx?_eq_some_iff_getElem]
  constructor
  · rintro ⟨hlt, hname, _⟩
    exact ⟨items[id], List.getElem?_eq_getElem hlt, beq_iff_eq.mp hname⟩
  · rintro ⟨a, hget, hname⟩
    rcases List.getElem?_eq_some_iff.mp hget with ⟨hlt, ha⟩
    refine ⟨hlt, beq_iff_eq.mpr (by rw [ha, hname]), fun other hother => ?_⟩
    rw [beq_iff_eq]
    intro hsame
    -- No two places have the same text.
    refine List.nodup_iff_getElem?_ne_getElem?.mp hnodup other id hother
      (by rw [List.length_map]; exact hlt) ?_
    rw [List.getElem?_map, List.getElem?_map, hget,
      List.getElem?_eq_getElem (Nat.lt_trans hother hlt), Option.map_some, Option.map_some, hsame,
      hname]

/-- Where names are not shared, looking a name up finds the declaration that has
    it. -/
theorem Table.find?_eq_some_iff (t : Table) (hunique : t.UniquelyNamed) (name : String)
    (id : DeclId) : t.find? name = some id ↔ id < t.size ∧ t.name id = name := by
  unfold find? Table.name get? size
  rw [findIdx?_eq_some_iff_of_nodup Entry.name t.entries hunique]
  constructor
  · rintro ⟨entry, hentry, hname⟩
    rw [hentry]
    exact ⟨(List.getElem?_eq_some_iff.mp hentry).1, hname⟩
  · rintro ⟨hlt, hname⟩
    rw [List.getElem?_eq_getElem hlt] at hname ⊢
    exact ⟨_, rfl, hname⟩

namespace Scope

theorem readName_eq_ok_iff (chars rest : List Char) (text : String) :
    readName chars = .ok (text, rest) ↔
      Text.IsName text ∧ Text.skipBlanks chars = text.toList ++ rest ∧
        ∀ c ∈ rest.head?, Text.isNameChar c = false := by
  unfold readName
  constructor
  · intro h
    -- The run of name characters and what is behind it make up the text.
    have hsplit : (Text.skipBlanks chars).takeWhile Text.isNameChar ++
        (Text.skipBlanks chars).dropWhile Text.isNameChar = Text.skipBlanks chars :=
      List.takeWhile_append_dropWhile
    simp only at h
    split at h
    · -- An empty run is refused.
      exact absurd h (by simp only [reduceCtorEq, not_false_eq_true])
    · rename_i run hne
      simp only [Except.ok.injEq, Prod.mk.injEq] at h
      rcases h with ⟨rfl, rfl⟩
      rw [String.toList_ofList]
      refine ⟨⟨?_, ?_⟩, hsplit.symm, fun c hc => ?_⟩
      · rw [String.toList_ofList]
        exact hne
      · rw [String.toList_ofList]
        intro c hc
        exact List.mem_takeWhile_imp hc
      · -- The run ends only where a character is not part of it.
        have hhead := List.head?_dropWhile_not Text.isNameChar (Text.skipBlanks chars)
        rw [Option.mem_def.mp hc] at hhead
        exact hhead
  · rintro ⟨hname, hskip, hend⟩
    -- The name is all of the run: its characters belong to it, the next one does not.
    have htake : (text.toList ++ rest).takeWhile Text.isNameChar = text.toList := by
      rw [List.takeWhile_append_of_pos hname.isNameChar]
      cases rest with
      | nil => rw [List.takeWhile_nil, List.append_nil]
      | cons c more =>
          have hc : Text.isNameChar c = false := hend c rfl
          rw [List.takeWhile_cons_of_neg (by rw [hc]; exact Bool.false_ne_true), List.append_nil]
    have hdrop : (text.toList ++ rest).dropWhile Text.isNameChar = rest := by
      rw [List.dropWhile_append_of_pos hname.isNameChar]
      cases rest with
      | nil => rfl
      | cons c more =>
          have hc : Text.isNameChar c = false := hend c rfl
          rw [List.dropWhile_cons_of_neg (by rw [hc]; exact Bool.false_ne_true)]
    simp only [hskip, htake, hdrop]
    split
    · rename_i hnil
      exact absurd hnil hname.ne_nil
    · rw [String.ofList_toList]

/-- What is read as a name is the next token. -/
theorem readName_sound (chars rest : List Char) (text : String)
    (h : readName chars = .ok (text, rest)) (later : List Token) (hlater : Lexes rest later) :
    Lexes chars (.name text :: later) := by
  rcases (readName_eq_ok_iff chars rest text).mp h with ⟨hname, hskip, hend⟩
  rw [← Lexes.skipBlanks_iff, hskip]
  exact Lexes.name text rest later hname hend hlater

theorem derives_leaf (scope : Scope) (name : String) :
    Derives scope.table scope.formals [.name name] (scope.leaf name) := by
  unfold leaf
  by_cases h : scope.formals.contains name = true
  · rw [if_pos h]
    exact .param name (List.contains_iff_mem.mp h)
  · rw [if_neg h]
    exact .literal name fun hmem => h (List.contains_iff_mem.mpr hmem)

@[simp]
theorem leaf_of_mem (scope : Scope) (name : String) (h : name ∈ scope.formals) :
    scope.leaf name = .param name := by
  unfold leaf
  rw [if_pos (List.contains_iff_mem.mpr h)]

@[simp]
theorem leaf_of_not_mem (scope : Scope) (name : String) (h : name ∉ scope.formals) :
    scope.leaf name = .literal name := by
  unfold leaf
  rw [if_neg (fun hmem => h (List.contains_iff_mem.mp hmem))]

/-- If each argument that is read is derived from what was read for it, then so
    are all of them together, up to the bracket that ends them. -/
theorem readArgs_sound (t : Table) (formals : List String)
    (item : List Char → Except Stop (Expr × List Char))
    (hitem : ∀ chars e rest, item chars = .ok (e, rest) → ∃ tokens, Derives t formals tokens e ∧
      ∀ later, Lexes rest later → Lexes chars (tokens ++ later))
    (fuel : Nat) (chars rest : List Char) (args : List Expr)
    (h : readArgs item fuel chars = .ok (args, rest)) :
    ∃ tokens, DerivesArgs t formals tokens args ∧
      ∀ later, Lexes rest later → Lexes chars (tokens ++ .closing :: later) := by
  induction fuel generalizing chars rest args with
  | zero => exact absurd h (by simp only [readArgs, reduceCtorEq, not_false_eq_true])
  | succ fuel ih =>
      rcases readArgs_cases item fuel chars rest args h with
        ⟨arg, mid, harg, ⟨tail, more, hcomma, hmore, rfl⟩ | ⟨hclose, rfl⟩⟩
      · -- The comma stands between the tokens of the argument and those of the others.
        rcases hitem chars arg mid harg with ⟨tokens, hderives, hlex⟩
        rcases ih tail rest more hmore with ⟨tokens', hderives', hlex'⟩
        refine ⟨tokens ++ .comma :: tokens', .more tokens tokens' arg more hderives hderives',
          fun later hlater => ?_⟩
        rw [List.append_assoc, List.cons_append]
        apply hlex
        rw [← Lexes.skipBlanks_iff, hcomma]
        exact .comma tail _ (hlex' later hlater)
      · rcases hitem chars arg mid harg with ⟨tokens, hderives, hlex⟩
        refine ⟨tokens, .one tokens arg hderives, fun later hlater => ?_⟩
        apply hlex
        rw [← Lexes.skipBlanks_iff, hclose]
        exact .closing rest _ hlater

/-- Whatever is read is derived from the tokens that were read for it. -/
theorem readExpr_sound (scope : Scope) (hunique : scope.table.UniquelyNamed) (levels : Nat)
    (chars rest : List Char) (e : Expr) (h : scope.readExpr levels chars = .ok (e, rest)) :
    ∃ tokens, Derives scope.table scope.formals tokens e ∧
      ∀ later, Lexes rest later → Lexes chars (tokens ++ later) := by
  induction levels generalizing chars rest e with
  | zero => exact absurd h (by simp only [readExpr, reduceCtorEq, not_false_eq_true])
  | succ levels ih =>
      rcases readExpr_cases scope levels chars rest e h with
        ⟨name, mid, hname, ⟨tail, args, hopen, hargs, happlied⟩ | ⟨_, rfl, rfl⟩⟩
      · -- What stands before the bracket was found, so it is a declaration's name.
        rcases applied_eq_ok scope name args e happlied with ⟨head, hfind, harity, rfl⟩
        rcases (scope.table.find?_eq_some_iff hunique name head).mp hfind with ⟨hhead, rfl⟩
        rcases readArgs_sound scope.table scope.formals _ (fun chars e rest => ih chars rest e)
          _ _ _ _ hargs with ⟨tokens, hderives, hlex⟩
        refine ⟨_, .app head tokens args hhead harity hderives, fun later hlater => ?_⟩
        simp only [List.cons_append, List.append_assoc, List.nil_append]
        refine readName_sound chars mid _ hname _ ?_
        rw [← Lexes.skipBlanks_iff, hopen]
        exact .opening tail _ (hlex later hlater)
      · refine ⟨[.name name], derives_leaf scope name, fun later hlater => ?_⟩
        exact readName_sound chars mid name hname later (by simpa using hlater)

/-- A name that comes next is read, and leaves what lexes to the other tokens. -/
theorem readName_complete (chars : List Char) (text : String) (later : List Token)
    (h : Lexes chars (.name text :: later)) :
    ∃ rest, readName chars = .ok (text, rest) ∧ Lexes rest later := by
  rcases Lexes.exists_startsAs chars _ later h with ⟨rest, hstart, hrest⟩
  exact ⟨rest, (readName_eq_ok_iff chars rest text).mpr hstart, hrest⟩

/-- What follows a bare name starts with a bracket exactly when the next token is
    one. -/
theorem skipBlanks_ne_opening (chars : List Char) (later : List Token) (h : Lexes chars later)
    (hlater : later.head? ≠ some .opening) (tail : List Char) :
    Text.skipBlanks chars ≠ '<' :: tail := by
  intro hskip
  cases later with
  | nil =>
      rw [Lexes.skipBlanks_of_nil chars h] at hskip
      exact absurd hskip (by simp only [reduceCtorEq, not_false_eq_true])
  | cons token later =>
      rcases Lexes.exists_startsAs chars token later h with ⟨rest, hstart, _⟩
      rw [hskip] at hstart
      cases token with
      | name text =>
          -- A bracket is no name character.
          rcases hstart with ⟨hname, hchars, _⟩
          cases htext : text.toList with
          | nil => exact hname.ne_nil htext
          | cons c more =>
              have hc := hname.isNameChar c (by rw [htext]; exact List.mem_cons_self)
              rw [htext, List.cons_append, List.cons.injEq] at hchars
              rw [← hchars.1] at hc
              exact absurd hc (by decide +kernel)
      | opening => exact hlater rfl
      | comma => exact absurd (List.cons.inj hstart).1 (by decide)
      | closing => exact absurd (List.cons.inj hstart).1 (by decide)

/-- A bare name that is not followed by a bracket is read, with the blanks behind
    it. -/
theorem readExpr_leaf (scope : Scope) (levels : Nat) (chars : List Char) (name : String)
    (later : List Token) (hlex : Lexes chars (.name name :: later))
    (hlater : later.head? ≠ some .opening) :
    ∃ rest, scope.readExpr (levels + 1) chars = .ok (scope.leaf name, rest) ∧ Lexes rest later := by
  rcases readName_complete chars name later hlex with ⟨mid, hname, hmid⟩
  refine ⟨Text.skipBlanks mid, ?_, by simpa using hmid⟩
  rw [readExpr, bind_eq_ok_iff]
  refine ⟨(name, mid), hname, ?_⟩
  simp only
  split
  · rename_i tail htail
    exact absurd htail (skipBlanks_ne_opening mid later hmid hlater tail)
  · rfl

/-- If each argument can be read from the tokens that derive it, then so can all
    of them together, given fuel for each. -/
theorem readArgs_complete (t : Table) (formals : List String)
    (item : List Char → Except Stop (Expr × List Char)) (args : List Expr)
    (hitem : ∀ e ∈ args, ∀ tokens chars later, Derives t formals tokens e →
      Lexes chars (tokens ++ later) → later.head? ≠ some .opening →
      ∃ rest, item chars = .ok (e, rest) ∧ Lexes rest later)
    (fuel : Nat) (tokens later : List Token) (chars : List Char)
    (hderives : DerivesArgs t formals tokens args)
    (hlex : Lexes chars (tokens ++ .closing :: later)) (hfuel : args.length ≤ fuel) :
    ∃ rest, readArgs item fuel chars = .ok (args, rest) ∧ Lexes rest later := by
  -- The arguments and the fuel go down together, one for each argument read.
  induction args generalizing fuel tokens chars with
  | nil => cases hderives
  | cons arg args ih =>
      rcases Nat.exists_eq_succ_of_ne_zero (Nat.ne_of_gt (Nat.lt_of_lt_of_le
        (Nat.succ_pos args.length) hfuel)) with ⟨fuel, rfl⟩
      cases hderives with
      | one tokens _ harg =>
          rcases hitem arg List.mem_cons_self tokens chars _ harg hlex
            (by simp only [List.head?_cons, Option.some.injEq, reduceCtorEq, ne_eq,
              not_false_eq_true]) with ⟨mid, hread, hmid⟩
          rcases Lexes.exists_startsAs mid _ later hmid with ⟨rest, hskip, hrest⟩
          simp only [Token.StartsAs] at hskip
          refine ⟨rest, ?_, hrest⟩
          rw [readArgs, bind_eq_ok_iff]
          exact ⟨(arg, mid), hread, by simp only [hskip]⟩
      | more tokens tokens' _ _ harg hargs =>
          rw [List.append_assoc, List.cons_append] at hlex
          -- A comma is no bracket either, so a bare name may stand before it.
          rcases hitem arg List.mem_cons_self tokens chars _ harg hlex
            (by simp only [List.head?_cons, Option.some.injEq, reduceCtorEq, ne_eq,
              not_false_eq_true]) with ⟨mid, hread, hmid⟩
          rcases Lexes.exists_startsAs mid _ _ hmid with ⟨tail, hskip, htail⟩
          simp only [Token.StartsAs] at hskip
          rcases ih (fun e he => hitem e (List.mem_cons_of_mem _ he)) fuel tokens' tail hargs
            htail (Nat.le_of_succ_le_succ hfuel) with ⟨rest, hmore, hrest⟩
          refine ⟨rest, ?_, hrest⟩
          rw [readArgs, bind_eq_ok_iff]
          refine ⟨(arg, mid), hread, ?_⟩
          simp only [hskip]
          rw [bind_eq_ok_iff]
          exact ⟨(args, rest), hmore, rfl⟩

/-- Whatever is derived from the next tokens is read, provided that it is not
    nested too deeply and no bracket follows. -/
theorem readExpr_complete (scope : Scope) (hunique : scope.table.UniquelyNamed) (levels : Nat)
    (tokens later : List Token) (chars : List Char) (e : Expr)
    (hderives : Derives scope.table scope.formals tokens e) (hnest : e.nesting ≤ levels)
    (hlex : Lexes chars (tokens ++ later)) (hlater : later.head? ≠ some .opening) :
    ∃ rest, scope.readExpr levels chars = .ok (e, rest) ∧ Lexes rest later := by
  induction levels generalizing tokens later chars e with
  | zero =>
      -- Every expression is nested at least once.
      cases e <;> simp only [Expr.nesting] at hnest <;> omega
  | succ levels ih =>
      cases hderives with
      | param name hname =>
          rw [← scope.leaf_of_mem name hname]
          exact readExpr_leaf scope levels chars name later hlex hlater
      | literal name hname =>
          rw [← scope.leaf_of_not_mem name hname]
          exact readExpr_leaf scope levels chars name later hlex hlater
      | app head tokens args hhead harity hargs =>
          simp only [List.cons_append, List.append_assoc, List.nil_append] at hlex
          rcases readName_complete chars _ _ hlex with ⟨mid, hname, hmid⟩
          rcases Lexes.exists_startsAs mid _ _ hmid with ⟨tail, hskip, htail⟩
          simp only [Token.StartsAs] at hskip
          have hall : ∀ a ∈ args, a.nesting ≤ levels := by
            rw [← Expr.nestingAll_le_iff]
            simp only [Expr.nesting] at hnest
            omega
          -- The brackets hold at least as many characters as arguments.
          have hfuel : args.length ≤ tail.length + 1 := by
            have htokens := Lexes.length_le tail _ htail
            have hcount := hargs.length_le
            rw [List.length_append] at htokens
            omega
          rcases readArgs_complete scope.table scope.formals (scope.readExpr levels) args
            (fun a ha tokens chars later hd hl hb => ih tokens later chars a hd (hall a ha) hl hb)
            (tail.length + 1) tokens later tail hargs htail hfuel with ⟨rest, hread, hrest⟩
          have hfind := (scope.table.find?_eq_some_iff hunique _ head).mpr ⟨hhead, rfl⟩
          have happlied : scope.applied (scope.table.name head) args = .ok (.app head args) := by
            unfold applied
            simp only [hfind, harity, if_true]
          refine ⟨rest, ?_, hrest⟩
          rw [readExpr, bind_eq_ok_iff]
          refine ⟨(scope.table.name head, mid), hname, ?_⟩
          simp only [hskip]
          rw [bind_eq_ok_iff]
          refine ⟨(args, rest), hread, ?_⟩
          simp only
          rw [bind_eq_ok_iff]
          exact ⟨.app head args, happlied, rfl⟩

theorem parse_eq_ok_iff (scope : Scope) (text : String) (e : Expr) :
    scope.parse text = .ok e ↔ Text.isBlankText text = false ∧
      ∃ rest, scope.readExpr scope.maxNesting text.toList = .ok (e, rest) ∧
        Text.skipBlanks rest = [] := by
  unfold parse
  by_cases hblank : Text.isBlankText text = true
  · simp only [hblank, if_true, reduceCtorEq, false_and]
  · rw [if_neg hblank, mapError_eq_ok_iff, readWhole, bind_eq_ok_iff]
    simp only [Bool.eq_false_iff.mpr hblank, true_and]
    constructor
    · rintro ⟨⟨e', rest⟩, hread, hend⟩
      simp only at hend
      split at hend
      · rename_i hnil
        rw [Except.ok.injEq] at hend
        rw [← hend]
        exact ⟨rest, hread, hnil⟩
      · exact absurd hend (by simp only [reduceCtorEq, not_false_eq_true])
    · rintro ⟨rest, hread, hnil⟩
      exact ⟨(e, rest), hread, by simp only [hnil]⟩

/-- The parser and the grammar agree, whatever the scope. -/
theorem parse_eq_ok_iff_exists (scope : Scope) (hunique : scope.table.UniquelyNamed)
    (text : String) (e : Expr) :
    scope.parse text = .ok e ↔
      (∃ tokens, Lexes text.toList tokens ∧ Derives scope.table scope.formals tokens e) ∧
        e.nesting ≤ scope.maxNesting := by
  rw [parse_eq_ok_iff]
  constructor
  · -- Nothing is left, so the tokens that were read are those of the text.
    rintro ⟨_, rest, hread, hnil⟩
    refine ⟨?_, (readExpr_inScope scope _ _ _ _ hread).2⟩
    rcases readExpr_sound scope hunique _ _ _ _ hread with ⟨tokens, hderives, hlex⟩
    have hend : Lexes rest [] := by
      rw [← Lexes.skipBlanks_iff, hnil]
      exact .nil
    refine ⟨tokens, ?_, hderives⟩
    rw [← List.append_nil tokens]
    exact hlex [] hend
  · rintro ⟨⟨tokens, hlex, hderives⟩, hnest⟩
    rw [← List.append_nil tokens] at hlex
    rcases readExpr_complete scope hunique _ tokens [] _ e hderives hnest hlex
      (by simp only [List.head?_nil, ne_eq, reduceCtorEq, not_false_eq_true]) with
      ⟨rest, hread, hrest⟩
    refine ⟨?_, rest, hread, Lexes.skipBlanks_of_nil rest hrest⟩
    -- A blank text has no name to start with.
    by_contra hblank
    rw [Bool.not_eq_false, Text.isBlankText, List.all_eq_true] at hblank
    rcases hderives.exists_name with ⟨name, more, rfl⟩
    rcases readName_complete _ name _ hlex with ⟨mid, hname, _⟩
    rcases (readName_eq_ok_iff _ mid name).mp hname with ⟨hisName, hskip, _⟩
    have hempty : Text.skipBlanks text.toList = [] := List.dropWhile_eq_nil_iff.mpr hblank
    rw [hempty, eq_comm, List.append_eq_nil_iff] at hskip
    exact hisName.ne_nil hskip.1

/-- The scope of a declaration, under a limit on nesting if one is set. -/
def ofOwner (t : Table) (owner : Entry) : Option Nat → Scope
  | none => { formals := owner.formals, table := t }
  | some limit => ({ formals := owner.formals, table := t } : Scope).withMaxNesting limit

theorem ofOwner_eq (t : Table) (owner : Entry) (limit : Option Nat) :
    ofOwner t owner limit = ⟨owner.formals, t, limit.elim 256 (min · 256)⟩ := by
  cases limit with
  | none => rfl
  | some limit => rfl

/-- A text is accepted with a tree exactly when its tokens derive that tree and
    the tree is nested within the limit, which is never more than the ceiling. -/
theorem parse_eq_ok_iff_derives (t : Table) (hunique : t.UniquelyNamed) (owner : Entry)
    (limit : Option Nat) (text : String) (e : Expr) :
    (ofOwner t owner limit).parse text = .ok e ↔
      (∃ tokens, Lexes text.toList tokens ∧ Derives t owner.formals tokens e) ∧
        e.nesting ≤ limit.elim 256 (min · 256) := by
  rw [ofOwner_eq]
  exact parse_eq_ok_iff_exists _ hunique text e

end Scope

namespace Shelf

def map : Entry := ⟨"Map", .type, ["K", "V"], ["K", "V"], none, false⟩

def box : Entry := ⟨"Box", .type, ["E"], ["E"], none, true⟩

/-- A method with one parameter, in whose body arguments are written. -/
def copy : Entry := ⟨"copy", .method, ["T"], ["T"], none, false⟩

def table : Table := ⟨[map, box, copy]⟩

/-- Three levels, a parameter, a literal and blanks of two sorts. A blank between
    two names does not join them, so no tree has a text with one there. -/
theorem parse_nested :
    table.UniquelyNamed ∧
    (∃ tokens, Lexes " Map<T ,\tBox< int>>".toList tokens ∧
      Derives table copy.formals tokens (.app 0 [.param "T", .app 1 [.literal "int"]])) ∧
    ∀ e, ¬ ((∃ tokens, Lexes "Box<int int>".toList tokens ∧
      Derives table copy.formals tokens e) ∧ e.nesting ≤ 256) := by
  have hunique : table.UniquelyNamed := by
    unfold Table.UniquelyNamed
    decide
  have hread := (Scope.parse_eq_ok_iff_derives table hunique copy (some 3)
    " Map<T ,\tBox< int>>" (.app 0 [.param "T", .app 1 [.literal "int"]])).mp rfl
  refine ⟨hunique, hread.1, fun e h => ?_⟩
  have hok := (Scope.parse_eq_ok_iff_derives table hunique copy none "Box<int int>" e).mpr h
  have herror : (Scope.ofOwner table copy none).parse "Box<int int>" =
      .error (.unexpectedChar 'i' 8) := rfl
  rw [herror] at hok
  exact absurd hok (by simp only [reduceCtorEq, not_false_eq_true])

end Shelf

end Monomorph
