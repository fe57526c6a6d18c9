import Monomorph.Expr.Parser
import Monomorph.Proofs.Substitution

/-!
# Expressions in Scope

What a parsed type argument may contain, and why that is enough for a binding to
close it.

An expression is in scope of some formals when each parameter in it, however
deep, is one of them, and when each application in it is well-formed: of a
registered declaration, to at least one argument, and to exactly as many as that
declaration takes. The parser decides each of these at the place where it builds
the node, so what it returns is in scope of the formals it was given, and nested
no deeper than it was allowed to go.

The point of being in scope is what it says about substitutions. Only the
formals matter: two substitutions that agree on them do the same
(`InScope.apply_congr`), and one that gives a closed expression to each of them
closes the whole (`InScope.isClosed_apply`).

## Main definitions

* `Expr.InScope`: Parameters are formals and applications are well-formed.

## Theorems

* `Expr.InScope.apply_congr`: Only what happens to formals matters.
* `Expr.InScope.isClosed_apply`: Closing the formals closes the expression.
* `Table.find?_lt_size`: What is found in a table is in it.
* `bind_eq_ok_iff`, `map_eq_ok_iff`, `mapError_eq_ok_iff`: A computation succeeds
  when each of its parts does.
* `map_eq_error_iff`, `bind_eq_error_iff`: A computation fails with the first part that
  does.
* `mapError_eq_error_iff`: What a computation with renamed failures fails with.
* `Scope.readArgs_cases`, `Scope.readExpr_cases`: How arguments and expressions
  were read.
* `Scope.leaf_inScope`, `Scope.applied_eq_ok`: What is built from a name.
* `Scope.readArgs_forall`: Arguments are what was read for each of them.
* `Scope.readExpr_inScope`: What is read is in scope and within its levels.
* `Scope.parse_inScope`: The same for a whole text.
-/

namespace Monomorph

namespace Expr

/-- Each parameter in the expression is one of the formals, and each application
    is of a registered declaration to as many arguments as it takes, of which
    there is at least one. -/
inductive InScope (t : Table) (formals : List String) : Expr → Prop
  | literal (name : String) : InScope t formals (.literal name)
  | param (name : String) (hname : name ∈ formals) : InScope t formals (.param name)
  | app (head : DeclId) (args : List Expr) (hhead : head < t.size) (hpos : args ≠ [])
      (harity : args.length = (t.formals head).length)
      (hargs : ∀ a ∈ args, InScope t formals a) : InScope t formals (.app head args)

namespace InScope

theorem apply_congr (t : Table) (formals : List String) (s s' : Subst) (e : Expr)
    (h : e.InScope t formals) (hsame : ∀ name ∈ formals, s.get? name = s'.get? name) :
    s.apply e = s'.apply e := by
  induction h with
  | literal name => rfl
  | param name hname => simp [hsame name hname]
  | app head args _ _ _ _ ih => simpa using ih

theorem isClosed_apply (t : Table) (formals : List String) (s : Subst) (e : Expr)
    (h : e.InScope t formals)
    (hclosed : ∀ name ∈ formals, ∃ v, s.get? name = some v ∧ v.isClosed = true) :
    (s.apply e).isClosed = true := by
  induction h with
  | literal name => rfl
  | param name hname =>
      rcases hclosed name hname with ⟨v, hv, hvclosed⟩
      simp [hv, hvclosed]
  | app head args _ _ _ _ ih => simpa [isClosed] using ih

end InScope

end Expr

/-- A computation that may fail succeeds when each of its parts does. -/
theorem bind_eq_ok_iff {ε α β : Type} (x : Except ε α) (f : α → Except ε β) (b : β) :
    (x >>= f) = .ok b ↔ ∃ a, x = .ok a ∧ f a = .ok b := by
  cases x with
  | error e => simp only [bind, Except.bind, reduceCtorEq, false_and, exists_false]
  | ok a => simp only [bind, Except.bind, Except.ok.injEq, exists_eq_left']

theorem map_eq_ok_iff {ε α β : Type} (x : Except ε α) (f : α → β) (b : β) :
    x.map f = .ok b ↔ ∃ a, x = .ok a ∧ f a = b := by
  cases x with
  | error e => simp only [Except.map, reduceCtorEq, false_and, exists_false]
  | ok a => simp only [Except.map, Except.ok.injEq, exists_eq_left']

theorem map_eq_error_iff {ε α β : Type} (x : Except ε α) (f : α → β) (e : ε) :
    x.map f = .error e ↔ x = .error e := by
  cases x with
  | error e' => simp only [Except.map, Except.error.injEq]
  | ok a => simp only [Except.map, reduceCtorEq]

theorem bind_eq_error_iff {ε α β : Type} (x : Except ε α) (f : α → Except ε β) (e : ε) :
    x.bind f = .error e ↔ x = .error e ∨ ∃ a, x = .ok a ∧ f a = .error e := by
  cases x with
  | error e' => simp only [Except.bind, Except.error.injEq, reduceCtorEq, false_and, exists_false,
      or_false]
  | ok a => simp only [Except.bind, reduceCtorEq, Except.ok.injEq, exists_eq_left', false_or]

theorem mapError_eq_ok_iff {ε ε' α : Type} (x : Except ε α) (f : ε → ε') (a : α) :
    x.mapError f = .ok a ↔ x = .ok a := by
  cases x with
  | error e =>
      change Except.error (f e) = Except.ok a ↔ _
      simp only [reduceCtorEq]
  | ok b =>
      change Except.ok b = Except.ok a ↔ _
      simp only [Except.ok.injEq]

theorem mapError_eq_error_iff {ε ε' α : Type} (x : Except ε α) (f : ε → ε') (e' : ε') :
    x.mapError f = .error e' ↔ ∃ e, x = .error e ∧ f e = e' := by
  cases x with
  | error e =>
      change Except.error (f e) = Except.error e' ↔ _
      simp only [Except.error.injEq, exists_eq_left']
  | ok a =>
      change Except.ok a = Except.error e' ↔ _
      simp only [reduceCtorEq, false_and, exists_false]

theorem Table.find?_lt_size (t : Table) (name : String) (id : DeclId)
    (h : t.find? name = some id) : id < t.size := by
  rw [Table.find?, List.findIdx?_eq_some_iff_findIdx_eq] at h
  exact h.1

namespace Scope

/-- Arguments are read one after the other: each is followed by a comma and more
    of them, or by the bracket that ends them. -/
theorem readArgs_cases (item : List Char → Except Stop (Expr × List Char)) (fuel : Nat)
    (chars rest : List Char) (args : List Expr)
    (h : readArgs item (fuel + 1) chars = .ok (args, rest)) :
    ∃ arg mid, item chars = .ok (arg, mid) ∧
      ((∃ tail later, Text.skipBlanks mid = ',' :: tail ∧
        readArgs item fuel tail = .ok (later, rest) ∧ args = arg :: later) ∨
      (Text.skipBlanks mid = '>' :: rest ∧ args = [arg])) := by
  rw [readArgs, bind_eq_ok_iff] at h
  rcases h with ⟨⟨arg, mid⟩, hitem, hmore⟩
  refine ⟨arg, mid, hitem, ?_⟩
  simp only at hmore
  -- What follows the argument decides: a comma, the closing bracket, or something wrong.
  split at hmore
  · rename_i tail htail
    rw [bind_eq_ok_iff] at hmore
    rcases hmore with ⟨⟨later, rest'⟩, hlater, heq⟩
    simp only [Except.ok.injEq, Prod.mk.injEq] at heq
    rcases heq with ⟨rfl, rfl⟩
    exact Or.inl ⟨tail, later, htail, hlater, rfl⟩
  · rename_i tail htail
    simp only [Except.ok.injEq, Prod.mk.injEq] at hmore
    rcases hmore with ⟨rfl, rfl⟩
    exact Or.inr ⟨htail, rfl⟩
  · exact absurd hmore (by simp only [reduceCtorEq, not_false_eq_true])

/-- An expression is a name with arguments after a bracket, or a bare name. -/
theorem readExpr_cases (scope : Scope) (levels : Nat) (chars rest : List Char) (e : Expr)
    (h : scope.readExpr (levels + 1) chars = .ok (e, rest)) :
    ∃ name mid, readName chars = .ok (name, mid) ∧
      ((∃ tail args, Text.skipBlanks mid = '<' :: tail ∧
        readArgs (scope.readExpr levels) (tail.length + 1) tail = .ok (args, rest) ∧
        scope.applied name args = .ok e) ∨
      ((∀ tail, Text.skipBlanks mid ≠ '<' :: tail) ∧ rest = Text.skipBlanks mid ∧
        e = scope.leaf name)) := by
  rw [readExpr, bind_eq_ok_iff] at h
  rcases h with ⟨⟨name, mid⟩, hname, hmore⟩
  refine ⟨name, mid, hname, ?_⟩
  simp only at hmore
  split at hmore
  · -- With a bracket after the name there are three parts that each may fail.
    rename_i tail htail
    rw [bind_eq_ok_iff] at hmore
    rcases hmore with ⟨⟨args, rest'⟩, hargs, happ⟩
    simp only at happ
    rw [bind_eq_ok_iff] at happ
    rcases happ with ⟨e', happlied, heq⟩
    simp only [Except.ok.injEq, Prod.mk.injEq] at heq
    rcases heq with ⟨rfl, rfl⟩
    exact Or.inl ⟨tail, args, htail, hargs, happlied⟩
  · rename_i hbare
    simp only [Except.ok.injEq, Prod.mk.injEq] at hmore
    rcases hmore with ⟨rfl, rfl⟩
    exact Or.inr ⟨fun tail => hbare tail, rfl, rfl⟩

theorem leaf_inScope (scope : Scope) (name : String) :
    (scope.leaf name).InScope scope.table scope.formals ∧ (scope.leaf name).nesting = 1 := by
  unfold leaf
  by_cases h : scope.formals.contains name = true
  · rw [if_pos h]
    exact ⟨.param name (List.contains_iff_mem.mp h), rfl⟩
  · rw [if_neg h]
    exact ⟨.literal name, rfl⟩

/-- An application is only built of a registered declaration and with as many
    arguments as it takes. -/
theorem applied_eq_ok (scope : Scope) (name : String) (args : List Expr) (e : Expr)
    (h : scope.applied name args = .ok e) :
    ∃ head, scope.table.find? name = some head ∧
      args.length = (scope.table.formals head).length ∧ e = .app head args := by
  unfold applied at h
  cases hfind : scope.table.find? name with
  | none =>
      rw [hfind] at h
      exact absurd h (by simp only [reduceCtorEq, not_false_eq_true])
  | some head =>
      rw [hfind] at h
      simp only at h
      -- The number of arguments is compared before anything is built.
      by_cases hlen : (scope.table.formals head).length = args.length
      · rw [if_pos hlen, Except.ok.injEq] at h
        exact ⟨head, rfl, hlen.symm, h.symm⟩
      · rw [if_neg hlen] at h
        exact absurd h (by simp only [reduceCtorEq, not_false_eq_true])

/-- Arguments are what was read for each of them, and there is at least one. -/
theorem readArgs_forall (P : Expr → Prop) (item : List Char → Except Stop (Expr × List Char))
    (hitem : ∀ chars e rest, item chars = .ok (e, rest) → P e) (fuel : Nat)
    (chars rest : List Char) (args : List Expr)
    (h : readArgs item fuel chars = .ok (args, rest)) : args ≠ [] ∧ ∀ a ∈ args, P a := by
  -- One argument is read per turn, so the fuel counts arguments and not characters.
  induction fuel generalizing chars rest args with
  | zero => exact absurd h (by simp only [readArgs, reduceCtorEq, not_false_eq_true])
  | succ fuel ih =>
      rcases readArgs_cases item fuel chars rest args h with
        ⟨arg, mid, harg, ⟨tail, later, _, hlater, rfl⟩ | ⟨_, rfl⟩⟩
      · refine ⟨List.cons_ne_nil _ _, fun a ha => ?_⟩
        rcases List.mem_cons.mp ha with rfl | ha
        · exact hitem _ _ _ harg
        · exact (ih _ _ _ hlater).2 a ha
      · refine ⟨List.cons_ne_nil _ _, fun a ha => ?_⟩
        rw [List.mem_singleton.mp ha]
        exact hitem _ _ _ harg

/-- Each level of the recursion is a level of nesting, so the bound on the one is
    a bound on the other. -/
theorem readExpr_inScope (scope : Scope) (levels : Nat) (chars rest : List Char) (e : Expr)
    (h : scope.readExpr levels chars = .ok (e, rest)) :
    e.InScope scope.table scope.formals ∧ e.nesting ≤ levels := by
  -- Arguments are read one level further down, which is where the hypothesis applies.
  induction levels generalizing chars rest e with
  | zero => exact absurd h (by simp only [readExpr, reduceCtorEq, not_false_eq_true])
  | succ levels ih =>
      rcases readExpr_cases scope levels chars rest e h with
        ⟨name, mid, _, ⟨tail, args, _, hargs, happlied⟩ | ⟨_, _, rfl⟩⟩
      · rcases applied_eq_ok scope name args e happlied with ⟨head, hfind, harity, rfl⟩
        rcases readArgs_forall _ _ (fun chars e rest => ih chars rest e) _ _ _ _ hargs with
          ⟨hpos, hall⟩
        refine ⟨.app head args (scope.table.find?_lt_size name head hfind) hpos harity
          (fun a ha => (hall a ha).1), ?_⟩
        have hnest := (Expr.nestingAll_le_iff args levels).mpr (fun a ha => (hall a ha).2)
        simp only [Expr.nesting]
        omega
      · rcases scope.leaf_inScope name with ⟨hscope, hnest⟩
        exact ⟨hscope, by omega⟩

theorem parse_inScope (scope : Scope) (text : String) (e : Expr)
    (h : scope.parse text = .ok e) :
    e.InScope scope.table scope.formals ∧ e.nesting ≤ scope.maxNesting := by
  unfold parse at h
  by_cases hblank : Text.isBlankText text = true
  · rw [if_pos hblank] at h
    exact absurd h (by simp only [reduceCtorEq, not_false_eq_true])
  · -- A text succeeds if an expression is read from it and nothing is left then.
    rw [if_neg hblank] at h
    rw [mapError_eq_ok_iff, readWhole, bind_eq_ok_iff] at h
    rcases h with ⟨⟨e', rest⟩, hread, hend⟩
    simp only at hend
    split at hend
    · rw [Except.ok.injEq] at hend
      rw [← hend]
      exact readExpr_inScope scope _ _ _ _ hread
    · exact absurd hend (by simp only [reduceCtorEq, not_false_eq_true])

end Scope

end Monomorph
