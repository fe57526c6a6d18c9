import Monomorph.Proofs.Cycles
import Monomorph.Proofs.Edges
import Monomorph.Proofs.Rendering
import Monomorph.Proofs.Sites

/-!
# Leaving Arguments Out Is a Shorthand

A site within the declaration that encloses its target may write the arguments for
the target's own parameters only. That says the same as writing, in front of them,
the names of the formals that the target inherits.

The two are scanned in different ways. For the short form the names are passed on
without being looked at, and fewer arguments are expected. For the long form they
are arguments like any other: they are counted, and read as texts. Two things have
to be known for that to come to the same. A name is read as the parameter that it
names, which is so because what encloses a declaration lends it its formals, however
far out it is, so the name is a formal of the caller (`parseEach_formals_append`).
And the long form is not taken for a short one: it has more arguments than the
target has parameters of its own. What can go wrong is then an argument that both
forms have, and it goes wrong in the same way.

Not every formal can be written. A name with a character that is in no name would
be read as something else or not at all, and there only the short form is left.

From outside, the short form is one with too few arguments.

## Main definitions

* `Entry.inherited`: The formals that come from what encloses a declaration.

## Theorems

* `Table.IsNested.inherited_eq`: They are the formals of what encloses it.
* `Scope.parse_formal`: A formal that is a name is read as a parameter.
* `parseEach_formals_append`: Formals in front of other arguments are read as they
  would be passed on.
* `scanSite_of_target`: What is passed on and what is read.
* `scanSite_short`, `scanSite_long`, `scanSite_outside`: The forms of a site.
* `Program.scanSite_shorthand`: What a short form stands for, and where.
* `Clinic.isName_inherited`, `Clinic.scanSite_program`: A program with both forms, and a
  caller outside.
-/

namespace Monomorph

/-- The formals that a declaration has from what encloses it, which are those in front
    of its own. -/
def Entry.inherited (entry : Entry) : List String :=
  entry.formals.take (entry.formals.length - entry.ownParams.length)

theorem Table.IsNested.inherited_eq {t : Table} (hnested : t.IsNested) {callee outer : DeclId}
    {target : Entry} (hget : t.get? callee = some target)
    (houter : target.enclosing = some outer) :
    target.inherited = t.formals outer ∧
      target.formals.length = target.inherited.length + target.ownParams.length := by
  -- In a nested table own parameters stand behind those of what encloses.
  have hformals : target.formals = t.formals outer ++ target.ownParams := by
    rw [hnested.formals_eq callee target hget, houter, Option.elim_some]
  have hinherited : target.inherited = t.formals outer := by
    rw [Entry.inherited, hformals, List.length_append, Nat.add_sub_cancel, List.take_left]
  exact ⟨hinherited, by rw [hinherited, hformals, List.length_append]⟩

/-- A formal that is one run of name characters is read as the parameter it names. -/
theorem Scope.parse_formal (scope : Scope) (hunique : scope.table.UniquelyNamed)
    (hpos : 1 ≤ scope.maxNesting) (name : String) (hformal : name ∈ scope.formals)
    (hname : Text.IsName name) : scope.parse name = .ok (.param name) := by
  have hread := scope.parse_render hunique (.param name) (.param name hname hformal) hpos
  rwa [Expr.render, Expr.chars, String.ofList_toList] at hread

section Arguments

variable (scope : Scope) (target : String)

/-- Formals that are written in front of other arguments are read as they would be
    passed on, and what is wrong with the others stays the same. -/
theorem parseEach_formals_append (hunique : scope.table.UniquelyNamed)
    (hpos : 1 ≤ scope.maxNesting) (names texts : List String) (hformals : names ⊆ scope.formals)
    (hnames : ∀ name ∈ names, Text.IsName name) :
    parseEach scope target (names ++ texts) =
      (parseEach scope target texts).map (formalRefs names ++ ·) := by
  induction names with
  | nil =>
      rw [List.nil_append]
      cases parseEach scope target texts with
      | error fault => rfl
      | ok args => rfl
  | cons name rest ih =>
      -- The name is read first, so what is refused is what would be without it.
      have hread := scope.parse_formal hunique hpos name (hformals List.mem_cons_self)
        (hnames name List.mem_cons_self)
      rw [List.cons_append, parseEach, hread]
      simp only
      rw [ih (List.subset_of_cons_subset hformals)
        fun other hother => hnames other (List.mem_cons_of_mem _ hother)]
      cases parseEach scope target texts with
      | error fault => rfl
      | ok args => rfl

end Arguments

section Forms

variable (t : Table) (maxNesting : Nat) (caller callee outer : DeclId) (target : Entry)
  (hfind : t.find? target.name = some callee) (hget : t.get? callee = some target)
  (own : List String) (kind : SiteKind)

include hfind hget

/-- A site whose target is known passes some formals on and reads the rest. -/
theorem scanSite_of_target (typeArgs : List String) :
    scanSite t maxNesting caller ⟨target.name, typeArgs, kind⟩ =
      (parseArgs (({ formals := t.formals caller, table := t } : Scope).withMaxNesting maxNesting)
        target.name typeArgs
        (target.formals.length - (capturedFormals t caller target typeArgs.length).length)).map
          fun args => ⟨caller, callee,
            formalRefs (capturedFormals t caller target typeArgs.length) ++ args, .site kind⟩ := by
  unfold scanSite
  simp only [hfind, hget, Option.elim_some, t.formals_of_get? callee target hget]

variable (hnested : t.IsNested) (houter : target.enclosing = some outer)

include hnested houter

/-- The short form within `outer`: the inherited formals are passed on. -/
theorem scanSite_short (hown : own.length = target.ownParams.length)
    (hinside : t.encloses outer caller = true) :
    scanSite t maxNesting caller ⟨target.name, own, kind⟩ =
      (parseEach (({ formals := t.formals caller, table := t } : Scope).withMaxNesting maxNesting)
        target.name own).map
          fun args => ⟨caller, callee, formalRefs target.inherited ++ args, .site kind⟩ := by
  rcases hnested.inherited_eq hget houter with ⟨hinherited, hlength⟩
  -- Fewer arguments are expected by as many as are passed on.
  rw [scanSite_of_target t maxNesting caller callee target hfind hget kind own, hown,
    capturedFormals_eq t hnested caller callee outer target hget houter hinside, ← hinherited,
    parseArgs, if_pos (by omega)]

/-- The long form: nothing is passed on, and as many arguments are read as there are
    formals. -/
theorem scanSite_long (hown : own.length = target.ownParams.length) :
    scanSite t maxNesting caller ⟨target.name, target.inherited ++ own, kind⟩ =
      (parseEach (({ formals := t.formals caller, table := t } : Scope).withMaxNesting maxNesting)
        target.name (target.inherited ++ own)).map
          fun args => ⟨caller, callee, args, .site kind⟩ := by
  -- With all arguments written, none is left to pass on.
  have hlength : (target.inherited ++ own).length = target.formals.length := by
    rw [(hnested.inherited_eq hget houter).2, List.length_append, hown]
  rw [scanSite_of_target t maxNesting caller callee target hfind hget kind, hlength,
    capturedFormals_of_all, parseArgs, if_pos (by rw [hlength, List.length_nil, Nat.sub_zero])]
  rfl

/-- The short form outside of `outer`: nothing is passed on, so arguments are missing. -/
theorem scanSite_outside (hown : own.length = target.ownParams.length)
    (hinherits : target.inherited ≠ []) (houtside : t.encloses outer caller = false) :
    scanSite t maxNesting caller ⟨target.name, own, kind⟩ =
      .error (.wrongCount target.name target.formals.length own.length) := by
  have hlength := (hnested.inherited_eq hget houter).2
  have hpos := List.length_pos_iff.mpr hinherits
  have hnone : capturedFormals t caller target own.length = [] := by
    rcases capturedFormals_cases t hnested caller callee target hget own.length with
      hnone | ⟨scope, hscope, hinside, _⟩
    · exact hnone
    · -- Formals are passed on only within what encloses the target.
      rw [Option.some.inj (houter.symm.trans hscope), hinside] at houtside
      exact absurd houtside.symm Bool.false_ne_true
  rw [scanSite_of_target t maxNesting caller callee target hfind hget kind, hnone, parseArgs,
    if_neg (by rw [List.length_nil]; omega)]
  rfl

end Forms

/-- Leaving arguments out is a shorthand. For a target that inherits formals, a site
    that writes arguments for the target's own parameters only stands, within what
    encloses the target, for the site that writes the names of the inherited formals in
    front of them, provided that these are names: both give the same edge, or both are
    refused with the same report about an argument that both have. Anywhere else too
    few arguments are written, which is what is reported. -/
theorem Program.scanSite_shorthand (p : Program) (settings : Settings)
    (hvalid : settings.validate = .ok settings) (caller callee outer : DeclId)
    (writer : Declaration) (hcaller : (registered p.declarations)[caller]? = some writer)
    (target : Entry)
    (hcallee : (p.scan settings.maxTypeNesting).graph.table.get? callee = some target)
    (houter : target.enclosing = some outer) (hinherits : target.inherited ≠ [])
    (own : List String) (hown : own.length = target.ownParams.length) (kind : SiteKind) :
    let t := (p.scan settings.maxTypeNesting).graph.table
    let outcome := fun typeArgs : List String =>
      siteOutcome t settings.maxTypeNesting caller writer.name ⟨target.name, typeArgs, kind⟩
    (Relation.ReflTransGen t.Within caller outer →
      (∀ name ∈ target.inherited, Text.IsName name) →
      outcome (target.inherited ++ own) = outcome own ∧
      ((∃ args, outcome own =
          .ok ⟨caller, callee, formalRefs target.inherited ++ args, .site kind⟩) ∨
        ∃ d, outcome own = .error d ∧ d.code = .malformedGenericExpression ∧
          ∃ text ∈ own, ∃ cause,
            d = SiteFault.diagnostic writer.name (.badArgument target.name text cause))) ∧
    (¬ Relation.ReflTransGen t.Within caller outer →
      outcome own = .error (SiteFault.diagnostic writer.name
        (.wrongCount target.name target.formals.length own.length))) := by
  intro t outcome
  have hnested : t.IsNested := Table.register_isNested p.declarations
  have hunique : t.UniquelyNamed := Table.register_uniquelyNamed p.declarations
  have hlt : caller < t.size := Table.lt_size_register p.declarations caller writer hcaller
  have hencloses := Table.encloses_register_iff p.declarations outer caller hlt
  have hfind : t.find? target.name = some callee := by
    refine (t.find?_eq_some_iff hunique target.name callee).mpr
      ⟨t.lt_size_of_get? callee target hcallee, ?_⟩
    rw [Table.name, hcallee, Option.elim_some]
  refine ⟨fun hwithin hnames => ?_, fun houtside => ?_⟩
  · have hinside : t.encloses outer caller = true := hencloses.mpr hwithin
    have hshort := scanSite_short t settings.maxTypeNesting caller callee outer target hfind
      hcallee own kind hnested houter hown hinside
    have hlong := scanSite_long t settings.maxTypeNesting caller callee outer target hfind
      hcallee own kind hnested houter hown
    -- The caller has the formals of everything that it stands in.
    have hformals : target.inherited ⊆ t.formals caller := by
      rw [(hnested.inherited_eq hcallee houter).1]
      exact (t.formals_prefix_of_encloses hnested outer caller hinside).subset
    have hpos : 1 ≤ (({ formals := t.formals caller, table := t } : Scope).withMaxNesting
        settings.maxTypeNesting).maxNesting :=
      Nat.le_min.mpr ⟨settings.maxTypeNesting_pos hvalid, by decide⟩
    rw [parseEach_formals_append _ target.name hunique hpos target.inherited own hformals
      hnames] at hlong
    simp only [outcome, siteOutcome, hshort, hlong]
    -- From here on both forms are one expression, so they can only fail together.
    cases hread : parseEach (({ formals := t.formals caller, table := t } : Scope).withMaxNesting
        settings.maxTypeNesting) target.name own with
    | ok args => exact ⟨rfl, Or.inl ⟨args, rfl⟩⟩
    | error fault =>
        rcases parseEach_eq_error _ target.name own fault hread with ⟨text, htext, cause, _, rfl⟩
        exact ⟨rfl, Or.inr ⟨_, rfl, rfl, text, htext, cause, rfl⟩⟩
  · have hnot : t.encloses outer caller = false := by
      rw [← Bool.not_eq_true]
      exact fun hinside => houtside (hencloses.mp hinside)
    simp only [outcome, siteOutcome]
    rw [scanSite_outside t settings.maxTypeNesting caller callee outer target hfind hcallee own
      kind hnested houter hown hinherits hnot]
    rfl

namespace Clinic

/-- A clinic for something, with wards and beds. A ward is checked by preparing a bed,
    once with the argument for the clinic left out, once with it and once with an
    argument that cannot be read. Somebody outside prepares a bed too. -/
def program : Program where
  declarations :=
    [{ name := "visit", kind := .method, body := [⟨"Clinic.Bed", ["int"], .construct⟩] },
     { name := "Clinic", kind := .type, typeParams := ["T"] },
     { name := "Clinic.Ward", kind := .type, typeParams := ["W"], enclosing := some "Clinic" },
     { name := "Clinic.Ward.check", kind := .method, enclosing := some "Clinic.Ward",
       body := [⟨"Clinic.Bed", ["Clinic<W>"], .construct⟩,
         ⟨"Clinic.Bed", ["T", "Clinic<W>"], .construct⟩, ⟨"Clinic.Bed", ["Clinic<"], .construct⟩] },
     { name := "Clinic.Bed", kind := .type, typeParams := ["B"], enclosing := some "Clinic" }]

def table : Table :=
  (program.scan ({} : Settings).maxTypeNesting).graph.table

/-- A bed, as it is registered. -/
def bed : Entry where
  name := "Clinic.Bed"
  kind := .type
  ownParams := ["B"]
  formals := ["T", "B"]
  enclosing := some 1
  requiresSpecialization := false

theorem isName_inherited : ∀ name ∈ bed.inherited, Text.IsName name := by
  intro name hname
  have hT : name = "T" := List.mem_singleton.mp hname
  subst hT
  refine ⟨by decide, fun c hc => ?_⟩
  have hc' : c = 'T' := List.mem_singleton.mp hc
  subst hc'
  decide +kernel

/-- Preparing a bed in a ward needs no argument for the clinic, also where the argument
    for the bed is refused; from outside it does. -/
theorem scanSite_program :
    ({} : Settings).validate = .ok {} ∧ table.get? 4 = some bed ∧ bed.inherited = ["T"] ∧
    Relation.ReflTransGen table.Within 3 1 ∧
    (siteOutcome table 32 3 "Clinic.Ward.check" ⟨"Clinic.Bed", ["T", "Clinic<W>"], .construct⟩ =
        siteOutcome table 32 3 "Clinic.Ward.check" ⟨"Clinic.Bed", ["Clinic<W>"], .construct⟩ ∧
      siteOutcome table 32 3 "Clinic.Ward.check" ⟨"Clinic.Bed", ["Clinic<W>"], .construct⟩ =
        .ok ⟨3, 4, [.param "T", .app 1 [.param "W"]], .site .construct⟩) ∧
    (siteOutcome table 32 3 "Clinic.Ward.check" ⟨"Clinic.Bed", ["T", "Clinic<"], .construct⟩ =
        siteOutcome table 32 3 "Clinic.Ward.check" ⟨"Clinic.Bed", ["Clinic<"], .construct⟩ ∧
      siteOutcome table 32 3 "Clinic.Ward.check" ⟨"Clinic.Bed", ["Clinic<"], .construct⟩ =
        .error (SiteFault.diagnostic "Clinic.Ward.check"
          (.badArgument "Clinic.Bed" "Clinic<" .unexpectedEnd))) ∧
    ¬ Relation.ReflTransGen table.Within 0 1 ∧
    siteOutcome table 32 0 "visit" ⟨"Clinic.Bed", ["int"], .construct⟩ =
      .error (SiteFault.diagnostic "visit" (.wrongCount "Clinic.Bed" 2 1)) := by
  have hvalid : ({} : Settings).validate = .ok {} := by decide
  have hbed : table.get? 4 = some bed := by decide +kernel
  have hsize : table.size = 5 := by decide +kernel
  have hinside : Relation.ReflTransGen table.Within 3 1 :=
    (Table.encloses_register_iff program.declarations 1 3 (by change 3 < table.size; omega)).mp
      (by decide +kernel)
  have houtside : ¬ Relation.ReflTransGen table.Within 0 1 := by
    intro hwithin
    have hencloses := (Table.encloses_register_iff program.declarations 1 0
      (by change 0 < table.size; omega)).mpr hwithin
    exact absurd hencloses (by decide +kernel)
  have hward := fun own hown => (program.scanSite_shorthand {} hvalid 3 4 1 _ rfl bed hbed rfl
    (by decide) own hown .construct).1 hinside isName_inherited
  refine ⟨hvalid, hbed, rfl, hinside, ⟨(hward ["Clinic<W>"] rfl).1, by decide +kernel⟩,
    ⟨(hward ["Clinic<"] rfl).1, by decide +kernel⟩, houtside, ?_⟩
  exact (program.scanSite_shorthand {} hvalid 0 4 1 _ rfl bed hbed rfl (by decide) ["int"] rfl
    .construct).2 houtside

end Clinic

end Monomorph
