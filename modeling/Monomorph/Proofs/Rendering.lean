import Monomorph.Proofs.Grammar

/-!
# Rendering and Parsing

Writing an expression and reading it back undo each other.

The two were not written together. Rendering puts names, brackets and commas one
after the other and knows nothing of scopes; parsing decides what a name is by
the formals around it and by the table. They meet in the tokens. An expression
has exactly the characters of the tokens that derive it
(`Derives.chars_eq`), and characters are those of their tokens and blanks
(`Lexes.chars_eq`), so whatever is read is written without its blanks.

Reading back what was written asks more. Nothing but a mark separates two names
in a rendering, and a name that holds another character, or none, would be cut
differently. `Spellable` lists what has to hold: it is exactly what the parser
guarantees of what it returns (`Derives.spellable`), so one statement about
spellable expressions serves for both directions.

The induction is on the expression, with any characters behind it that do not
start with a name character. Behind an argument that is a comma or a bracket.

## Main definitions

* `Text.withoutBlanks`: A text with every blank deleted.
* `Token.chars`: The characters of a token.
* `Expr.Spellable`: Names are names, and mean in scope what they are used for.

## Theorems

* `Lexes.chars_eq`: Characters are those of their tokens, and blanks.
* `Lexes.isName`: What is cut out as a name is one.
* `Expr.bracketed_of_ne_nil`: Arguments that are there stand between brackets.
* `DerivesArgs.ne_nil`: Something is derived.
* `DerivesArgs.chars_eq`, `Derives.chars_eq`: An expression is written as the tokens
  that derive it.
* `DerivesArgs.exists_tokens`: Each argument is derived from some of the tokens.
* `Derives.spellable`: What is derived from a text is spellable.
* `DerivesArgs.exists_of_written`, `Expr.Spellable.exists_tokens`: What is spellable is
  written as tokens that derive it.
* `Scope.render_of_parse`: What is read is written as it was, without blanks.
* `Scope.parse_render`: What is spellable is read back.
* `Scope.parse_render_inverse`: Both directions.
* `Shelf.render_nested`: A text with blanks, written without them and read back.
-/

namespace Monomorph

/-- The text with every blank deleted. -/
def Text.withoutBlanks (text : String) : String :=
  String.ofList (text.toList.filter fun c => !isBlank c)

/-- The characters of a token. -/
def Token.chars : Token → List Char
  | name text => text.toList
  | opening => ['<']
  | comma => [',']
  | closing => ['>']

/-- Characters are those of their tokens, and blanks. -/
theorem Lexes.chars_eq (chars : List Char) (tokens : List Token) (h : Lexes chars tokens) :
    tokens.flatMap Token.chars = chars.filter fun c => !Text.isBlank c := by
  induction h with
  | nil => rfl
  | blank c rest tokens hblank _ ih =>
      rw [List.filter_cons_of_neg (by rw [hblank]; exact Bool.false_ne_true)]
      exact ih
  | name text rest tokens hname _ _ ih =>
      -- No character of a name is a blank, so all of it stays.
      have hall : text.toList.filter (fun c => !Text.isBlank c) = text.toList := by
        rw [List.filter_eq_self]
        intro c hc
        rw [Text.isBlank_of_isNameChar c (hname.isNameChar c hc)]
        rfl
      rw [List.flatMap_cons, List.filter_append, hall, ih]
      rfl
  | opening rest tokens _ ih =>
      rw [List.flatMap_cons, ih]
      rfl
  | comma rest tokens _ ih =>
      rw [List.flatMap_cons, ih]
      rfl
  | closing rest tokens _ ih =>
      rw [List.flatMap_cons, ih]
      rfl

theorem Lexes.isName (chars : List Char) (tokens : List Token) (h : Lexes chars tokens)
    (text : String) (hmem : .name text ∈ tokens) : Text.IsName text := by
  induction h with
  | nil => exact absurd hmem List.not_mem_nil
  | blank _ _ _ _ _ ih => exact ih hmem
  | name other rest tokens hname _ _ ih =>
      rcases List.mem_cons.mp hmem with heq | hmem
      · rw [Token.name.inj heq]
        exact hname
      · exact ih hmem
  | opening _ _ _ ih => exact ih (by simpa only [List.mem_cons, reduceCtorEq, false_or] using hmem)
  | comma _ _ _ ih => exact ih (by simpa only [List.mem_cons, reduceCtorEq, false_or] using hmem)
  | closing _ _ _ ih => exact ih (by simpa only [List.mem_cons, reduceCtorEq, false_or] using hmem)

theorem DerivesArgs.chars_eq (t : Table) (formals : List String) (args : List Expr)
    (hall : ∀ a ∈ args, ∀ tokens, Derives t formals tokens a →
      a.chars t.name = tokens.flatMap Token.chars)
    (tokens : List Token) (h : DerivesArgs t formals tokens args) :
    Expr.commaJoin (args.map (Expr.chars t.name)) = tokens.flatMap Token.chars := by
  induction args generalizing tokens with
  | nil => cases h
  | cons arg args ih =>
      have hhead := hall arg List.mem_cons_self
      cases h with
      | one _ _ harg => exact hhead tokens harg
      | more tokens later _ _ harg hargs =>
          have hrest := ih (fun a ha => hall a (List.mem_cons_of_mem _ ha)) later hargs
          -- Behind a comma there is an argument, which is why the comma is written.
          cases args with
          | nil => cases hargs
          | cons next args =>
              rw [List.map_cons, List.map_cons, Expr.commaJoin, hhead tokens harg,
                List.flatMap_append, List.flatMap_cons, ← hrest]
              · rfl
              · exact List.cons_ne_nil _ _

/-- Arguments that are there stand between brackets. -/
theorem Expr.bracketed_of_ne_nil (pieces : List (List Char)) (h : pieces ≠ []) :
    bracketed pieces = '<' :: commaJoin pieces ++ ['>'] := by
  cases pieces with
  | nil => exact absurd rfl h
  | cons piece rest => rfl

theorem DerivesArgs.ne_nil (t : Table) (formals : List String) (tokens : List Token)
    (args : List Expr) (h : DerivesArgs t formals tokens args) : args ≠ [] := by
  cases h with
  | one _ _ _ => exact List.cons_ne_nil _ _
  | more _ _ _ _ _ _ => exact List.cons_ne_nil _ _

/-- An expression has exactly the characters of the tokens that derive it. -/
theorem Derives.chars_eq (t : Table) (formals : List String) (e : Expr) (tokens : List Token)
    (h : Derives t formals tokens e) : e.chars t.name = tokens.flatMap Token.chars := by
  induction e using Expr.induct generalizing tokens with
  | literal name =>
      cases h with
      | literal _ _ => exact (List.append_nil _).symm
  | param name =>
      cases h with
      | param _ _ => exact (List.append_nil _).symm
  | app head args ih =>
      cases h with
      | app _ tokens _ _ _ hargs =>
          -- There are arguments, so the brackets are written too.
          have hpieces : args.map (Expr.chars t.name) ≠ [] := by
            simpa using hargs.ne_nil
          rw [Expr.chars, Expr.charsAll_eq_map, Expr.bracketed_of_ne_nil _ hpieces,
            hargs.chars_eq t formals args ih tokens]
          simp only [List.flatMap_cons, List.flatMap_append, List.flatMap_nil, Token.chars,
            List.append_nil, List.cons_append, List.nil_append]

/-- Every name in the expression is one run of name characters; a literal is no
    formal and a parameter is one; and an application is of a registered
    declaration to as many arguments as it takes, of which there is at least
    one. -/
inductive Expr.Spellable (t : Table) (formals : List String) : Expr → Prop
  | literal (name : String) (hname : Text.IsName name) (hnot : name ∉ formals) :
      Spellable t formals (.literal name)
  | param (name : String) (hname : Text.IsName name) (hmem : name ∈ formals) :
      Spellable t formals (.param name)
  | app (head : DeclId) (args : List Expr) (hhead : head < t.size)
      (hname : Text.IsName (t.name head)) (harity : args.length = (t.formals head).length)
      (hpos : args ≠ []) (hargs : ∀ a ∈ args, Spellable t formals a) :
      Spellable t formals (.app head args)

/-- Each argument is derived from some of the tokens. -/
theorem DerivesArgs.exists_tokens (t : Table) (formals : List String) (args : List Expr)
    (tokens : List Token) (h : DerivesArgs t formals tokens args) (a : Expr) (ha : a ∈ args) :
    ∃ part, Derives t formals part a ∧ part ⊆ tokens := by
  induction args generalizing tokens with
  | nil => exact absurd ha List.not_mem_nil
  | cons arg args ih =>
      cases h with
      | one _ _ harg =>
          rw [List.mem_singleton.mp ha]
          exact ⟨tokens, harg, List.Subset.refl tokens⟩
      | more tokens later _ _ harg hargs =>
          rcases List.mem_cons.mp ha with rfl | ha
          · exact ⟨tokens, harg, List.subset_append_left _ _⟩
          · rcases ih later hargs ha with ⟨part, hpart, hsub⟩
            refine ⟨part, hpart, fun token htoken => ?_⟩
            exact List.mem_append_right _ (List.mem_cons_of_mem _ (hsub htoken))

/-- What is derived from a text is spellable: its names come from the text, and
    the rest is what deriving it asked. -/
theorem Derives.spellable (t : Table) (formals : List String) (e : Expr) (tokens : List Token)
    (h : Derives t formals tokens e) (hnames : ∀ text, .name text ∈ tokens → Text.IsName text) :
    e.Spellable t formals := by
  induction e using Expr.induct generalizing tokens with
  | literal name =>
      cases h with
      | literal _ hname => exact .literal name (hnames name List.mem_cons_self) hname
  | param name =>
      cases h with
      | param _ hname => exact .param name (hnames name List.mem_cons_self) hname
  | app head args ih =>
      cases h with
      | app _ tokens _ hhead harity hargs =>
          refine .app head args hhead (hnames _ List.mem_cons_self) harity hargs.ne_nil
            fun a ha => ?_
          -- The names of an argument are among those of the whole.
          rcases hargs.exists_tokens t formals args tokens a ha with ⟨part, hpart, hsub⟩
          refine ih a ha part hpart fun text htext => hnames text ?_
          exact List.mem_cons_of_mem _ (List.mem_cons_of_mem _
            (List.mem_append_left _ (hsub htext)))

/-- The expression is written as tokens that derive it, whatever follows, unless
    that could make its last name longer. -/
def Expr.WrittenAsDerived (t : Table) (formals : List String) (e : Expr) : Prop :=
  ∃ tokens, Derives t formals tokens e ∧ ∀ rest later,
    (∀ c ∈ rest.head?, Text.isNameChar c = false) → Lexes rest later →
      Lexes (e.chars t.name ++ rest) (tokens ++ later)

/-- Arguments that are each written as derived are so with commas between them. A
    comma ends the name before it. -/
theorem DerivesArgs.exists_of_written (t : Table) (formals : List String) (args : List Expr)
    (hpos : args ≠ []) (hall : ∀ a ∈ args, a.WrittenAsDerived t formals) :
    ∃ tokens, DerivesArgs t formals tokens args ∧ ∀ rest later,
      (∀ c ∈ rest.head?, Text.isNameChar c = false) → Lexes rest later →
        Lexes (Expr.commaJoin (args.map (Expr.chars t.name)) ++ rest) (tokens ++ later) := by
  induction args with
  | nil => exact absurd rfl hpos
  | cons arg args ih =>
      rcases hall arg List.mem_cons_self with ⟨tokens, hderives, hlex⟩
      cases args with
      | nil => exact ⟨tokens, .one tokens arg hderives, hlex⟩
      | cons next args =>
          rcases ih (List.cons_ne_nil _ _) (fun a ha => hall a (List.mem_cons_of_mem _ ha)) with
            ⟨more, hmore, hlexMore⟩
          refine ⟨tokens ++ .comma :: more, .more tokens more arg _ hderives hmore,
            fun rest later hend hrest => ?_⟩
          rw [List.map_cons, List.map_cons, Expr.commaJoin, List.append_assoc, List.append_assoc,
            List.cons_append, List.cons_append]
          · -- The argument is followed by the comma, which is in no name.
            exact hlex _ _ (Text.isNameChar_of_head_cons ',' _ (by decide +kernel))
              (.comma _ _ (hlexMore rest later hend hrest))
          · exact List.cons_ne_nil _ _

theorem Expr.Spellable.exists_tokens (t : Table) (formals : List String) (e : Expr)
    (h : e.Spellable t formals) : e.WrittenAsDerived t formals := by
  induction h with
  | literal name hname hnot =>
      refine ⟨[.name name], .literal name hnot, fun rest later hend hrest => ?_⟩
      exact .name name rest later hname hend hrest
  | param name hname hmem =>
      refine ⟨[.name name], .param name hmem, fun rest later hend hrest => ?_⟩
      exact .name name rest later hname hend hrest
  | app head args hhead hname harity hpos _ ih =>
      rcases DerivesArgs.exists_of_written t formals args hpos ih with ⟨tokens, hargs, hlex⟩
      refine ⟨_, .app head tokens args hhead harity hargs, fun rest later hend hrest => ?_⟩
      have hpieces : args.map (Expr.chars t.name) ≠ [] := by simpa using hpos
      rw [Expr.chars, Expr.charsAll_eq_map, Expr.bracketed_of_ne_nil _ hpieces]
      simp only [List.cons_append, List.append_assoc, List.nil_append]
      -- A bracket ends the name, and the other one ends the last argument.
      have hopens := Text.isNameChar_of_head_cons '<'
        (Expr.commaJoin (args.map (Expr.chars t.name)) ++ '>' :: rest) (by decide +kernel)
      have hcloses := Text.isNameChar_of_head_cons '>' rest (by decide +kernel)
      exact .name _ _ _ hname hopens (.opening _ _ (hlex _ _ hcloses (.closing rest later hrest)))

namespace Scope

variable (scope : Scope) (hunique : scope.table.UniquelyNamed)

include hunique

/-- What is spellable is read back as it was. -/
theorem parse_render (e : Expr) (h : e.Spellable scope.table scope.formals)
    (hnest : e.nesting ≤ scope.maxNesting) :
    scope.parse (e.render scope.table.name) = .ok e := by
  rcases h.exists_tokens with ⟨tokens, hderives, hlex⟩
  rw [parse_eq_ok_iff_exists scope hunique]
  refine ⟨⟨tokens, ?_, hderives⟩, hnest⟩
  -- Nothing follows the whole text.
  have hwhole := hlex [] [] (fun c hc => absurd hc (by
    simp only [List.head?_nil, Option.mem_def, reduceCtorEq, not_false_eq_true])) .nil
  rw [Expr.render, String.toList_ofList]
  rwa [List.append_nil, List.append_nil] at hwhole

/-- What is read is written as it was, without its blanks, and is spellable. -/
theorem render_of_parse (text : String) (e : Expr) (h : scope.parse text = .ok e) :
    e.render scope.table.name = Text.withoutBlanks text ∧
      e.Spellable scope.table scope.formals ∧ e.nesting ≤ scope.maxNesting := by
  rcases (parse_eq_ok_iff_exists scope hunique text e).mp h with ⟨⟨tokens, hlex, hderives⟩, hnest⟩
  refine ⟨?_, hderives.spellable _ _ e tokens (hlex.isName _ tokens), hnest⟩
  rw [Expr.render, Text.withoutBlanks, hderives.chars_eq, hlex.chars_eq]

end Scope

/-- Writing and reading undo each other. What is read from a text is written as
    the text without its blanks, and that is read as the same. What is spellable
    and within the limit is read back from its writing. -/
theorem Scope.parse_render_inverse (t : Table) (hunique : t.UniquelyNamed) (owner : Entry)
    (limit : Option Nat) :
    (∀ text e, (ofOwner t owner limit).parse text = .ok e →
      e.render t.name = Text.withoutBlanks text ∧
        (ofOwner t owner limit).parse (e.render t.name) = .ok e) ∧
    ∀ e, e.Spellable t owner.formals → e.nesting ≤ limit.elim 256 (min · 256) →
      (ofOwner t owner limit).parse (e.render t.name) = .ok e := by
  rw [ofOwner_eq]
  refine ⟨fun text e h => ?_, fun e h hnest => parse_render _ hunique e h hnest⟩
  rcases render_of_parse _ hunique text e h with ⟨hrender, hspellable, hnest⟩
  exact ⟨hrender, parse_render _ hunique e hspellable hnest⟩

namespace Shelf

/-- The blanks of a text are not written, and without them it is read as the same
    tree. -/
theorem render_nested :
    table.UniquelyNamed ∧
    (Expr.app 0 [.param "T", .app 1 [.literal "int"]]).render table.name =
      Text.withoutBlanks " Map<T ,\tBox< int>>" ∧
    (Scope.ofOwner table copy (some 3)).parse "Map<T,Box<int>>" =
      .ok (.app 0 [.param "T", .app 1 [.literal "int"]]) := by
  have hunique : table.UniquelyNamed := by
    unfold Table.UniquelyNamed
    decide
  rcases (Scope.parse_render_inverse table hunique copy (some 3)).1 " Map<T ,\tBox< int>>"
    (.app 0 [.param "T", .app 1 [.literal "int"]]) rfl with ⟨hrender, hparse⟩
  exact ⟨hunique, hrender, hparse⟩

end Shelf

end Monomorph
