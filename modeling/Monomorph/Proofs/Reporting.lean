import Mathlib.Data.List.Basic
import Monomorph.Command.Directory
import Monomorph.Command.Run

/-!
# Commands That Report

What it takes for a command to come as far as its report, and that files held in
memory have it.

A command fails early if it has no settings or no program, and late if its report
cannot be put where it should go. `Reports` says that none of this happens. What is
left then is whether errors are to be denied, and what is written is the report and
nothing else.

Files held in memory are found by following a path part by part. On the way down from
the working directory each part has to lead to a directory, and only the last one may
lead to a file. So the invariant of following is that the place reached is the one
below the names read so far (`Directory.follow_below`), and it serves reading and
writing alike, which differ in what they do with the last name.

## Main definitions

* `Reports`: A command has all it needs and gets its report out.
* `Directory.below`: A place below the working directory.
* `LeadsDown`: A path goes down from the working directory and ends in a name.
* `Directory.OpenTo`: The way down to a place goes through directories.
* `Directory.Holds`, `Directory.Takes`: A file can be read there, or put there.

## Theorems

* `loadProgram_of_file`: A program is loaded from the file it is written in.
* `written_loadSettings`, `written_loadProgram`, `written_deliver`: Only a report is
  ever written.
* `deliver_ok`: A report gets out if its file takes it.
* `perform_resolve`, `exit_execute`, `written_execute`: What a command comes to that
  gets its report out.
* `Directory.content?_home`, `Directory.content?_below`,
  `Directory.content?_below_ne_device`: What stands below the working directory.
* `Directory.leading_cons_of_name`, `Directory.leading_cons_of_stay`: Which parts count.
* `Directory.enter_stay`, `Directory.enter_name`, `Directory.follow_below`: Following
  parts down through directories.
* `LeadsDown.partsOf`, `LeadsDown.exists_last`: The parts of a path that leads down.
* `Directory.start_of_leadsDown`, `Directory.follow_way`: Following all of them but the
  last.
* `Directory.locate_of_openTo`, `Directory.target_of_takes`: Where the path leads.
* `Directory.node_of_holds`, `Directory.faults_of_takes`, `Directory.added?_of_takes`:
  What a command knows about the path.
* `Directory.eq_nil_of_prefix_singleton`, `Directory.openTo_singleton`: The way to a
  single name.
* `Directory.holds_of_lookup`: Which files can be read.
* `Directory.reports`: A command on a directory with its program gets its report out.
* `Directory.added_execute`: The report is what it adds to the directory.
-/

namespace Monomorph

namespace Command

/-- The command has its settings and its program, and gets its report out. -/
def Reports (storage : Storage) (env : Settings.Environment) (common : Common)
    (o : ResolveOptions) (settings : Settings) (p : Program) : Prop :=
  ∃ base loaded read delivered,
    loadSettings storage env common.config = (loaded, .ok base) ∧
      o.settings base = .ok settings ∧
      loadProgram storage loaded o.input = (read, .ok p) ∧
      deliver storage (read.logged (p.analyze settings).log) o (p.analyze settings) =
        (delivered, .ok ())

section Reports

variable (storage : Storage) (env : Settings.Environment) (common : Common)

theorem loadProgram_of_file (trail : Trail) (path text : String) (p : Program)
    (hfile : storage.node path = .file text) (hload : Program.load text = .ok p) :
    ∃ read, loadProgram storage trail path = (read, .ok p) := by
  unfold loadProgram
  simp only [hfile, hload]
  exact ⟨_, rfl⟩

@[simp]
theorem written_loadSettings (path? : Option String) :
    (loadSettings storage env path?).1.written = [] := by
  unfold loadSettings
  cases path? with
  | none => rfl
  | some path =>
      cases hnode : storage.node path with
      | missing => simp only [hnode]
      | unreadable fault =>
          simp only [hnode]
          rfl
      | file text =>
          simp only [hnode]
          cases Settings.load text <;> rfl

@[simp]
theorem written_loadProgram (trail : Trail) (path : String) :
    (loadProgram storage trail path).1.written = trail.written := by
  unfold loadProgram
  cases hnode : storage.node path with
  | missing => rfl
  | unreadable fault => rfl
  | file text =>
      -- Whether it can be loaded or not, only the log gets longer.
      cases hload : Program.load text <;> simp only [hload, Trail.logged]

/-- A report gets out on the screen, and into a file that takes it. -/
theorem deliver_ok (trail : Trail) (o : ResolveOptions) (a : Analysis)
    (hfile : ∀ path, o.output = some path →
      storage.creationFault? path = none ∧ storage.writingFault? path = none) :
    ∃ delivered, deliver storage trail o a = (delivered, .ok ()) := by
  unfold deliver
  cases houtput : o.output with
  | none => exact ⟨_, rfl⟩
  | some path =>
      rcases hfile path houtput with ⟨hcreate, hwrite⟩
      simp only [hcreate, hwrite, reportFailure?]
      exact ⟨_, rfl⟩

/-- What gets out is the report, into the file that is named. -/
theorem written_deliver (trail delivered : Trail) (o : ResolveOptions) (a : Analysis)
    (h : deliver storage trail o a = (delivered, .ok ())) :
    delivered.written = trail.written ++
      (o.output.map fun path => (path, (o.report a).render o.format)).toList := by
  unfold deliver at h
  cases houtput : o.output with
  | none =>
      simp only [houtput, Prod.mk.injEq, and_true] at h
      rw [← h]
      exact (List.append_nil _).symm
  | some path =>
      simp only [houtput] at h
      -- Each fault on the way would be the result, and the result is none.
      cases hcreate : storage.creationFault? path with
      | some fault => simp only [hcreate, Prod.mk.injEq, reduceCtorEq, and_false] at h
      | none =>
          simp only [hcreate] at h
          cases hfailure : reportFailure? (o.report a) o.format (storage.writingFault? path) with
          | some failure => simp only [hfailure, Prod.mk.injEq, reduceCtorEq, and_false] at h
          | none =>
              simp only [hfailure, Prod.mk.injEq, and_true] at h
              rw [← h]
              rfl

variable (o : ResolveOptions) (settings : Settings) (p : Program)

/-- A command that gets its report out fails if it is to deny errors and there are
    some, and for no other reason. -/
theorem perform_resolve (h : Reports storage env common o settings p) :
    (perform storage env common (.resolve o)).2 =
      if o.denyErrors = true ∧ 0 < (p.analyze settings).errorCount then
        .error ⟨s!"resolve failed for {o.input}",
          .errorsReported (p.analyze settings).errorCount⟩
      else .ok () := by
  rcases h with ⟨base, loaded, read, delivered, hbase, hsettings, hprogram, hdelivered⟩
  unfold perform
  simp only [hbase]
  unfold resolve
  simp only [hsettings, hprogram, hdelivered]
  -- The report is out, so what is left is to look at the errors.
  by_cases hdenied : o.denyErrors = true ∧ 0 < (p.analyze settings).errorCount
  · rw [if_pos hdenied, if_pos hdenied]
    rfl
  · rw [if_neg hdenied, if_neg hdenied]
    rfl

/-- A command exits with 0 unless it fails. -/
theorem exit_execute (task : Task) :
    (execute storage env common task).exit =
      ((perform storage env common task).2.toOption.elim 1 fun _ => 0) := by
  unfold execute
  rcases perform storage env common task with ⟨trail, result⟩
  cases result with
  | ok u => rfl
  | error blame => rfl

/-- A command that gets its report out writes that and nothing else, whether or not it
    fails for errors afterwards. -/
theorem written_execute (h : Reports storage env common o settings p) :
    (execute storage env common (.resolve o)).written =
      (o.output.map fun path =>
        (path, (o.report (p.analyze settings)).render o.format)).toList := by
  rcases h with ⟨base, loaded, read, delivered, hbase, hsettings, hprogram, hdelivered⟩
  -- Up to the report nothing has been written.
  have hloaded : loaded.written = [] := by
    rw [← written_loadSettings storage env common.config, hbase]
  have hread : read.written = [] := by
    rw [← hloaded, ← written_loadProgram storage loaded o.input, hprogram]
  have hwritten := written_deliver storage _ delivered o _ hdelivered
  rw [show (read.logged (p.analyze settings).log).written = [] from hread,
    List.nil_append] at hwritten
  rw [← hwritten]
  unfold execute perform
  simp only [hbase]
  unfold resolve
  simp only [hsettings, hprogram, hdelivered]
  -- Denying errors changes the result and leaves the trail.
  by_cases hdenied : o.denyErrors = true ∧ 0 < (p.analyze settings).errorCount
  · simp only [hdenied, and_self, if_true]
  · simp only [hdenied, if_false]

end Reports

/-- The path goes down from the working directory and ends in a name. -/
structure LeadsDown (path : String) : Prop where
  relative : path.startsWith "/" = false
  short : path.utf8ByteSize ≤ maxPathBytes
  down : ∀ part ∈ Directory.splitPath path, part ≠ ".." ∧ part.utf8ByteSize ≤ maxNameBytes
  ends : ∃ last, (Directory.splitPath path).getLast? = some last ∧ last ≠ "" ∧ last ≠ "."

@[simp]
theorem Directory.leading_cons_of_name (part : String) (rest : List String) (hempty : part ≠ "")
    (hpoint : part ≠ ".") : leading (part :: rest) = part :: leading rest := by
  refine List.filter_cons_of_pos ?_
  rw [Bool.and_eq_true, bne_iff_ne, bne_iff_ne]
  exact ⟨hempty, hpoint⟩

@[simp]
theorem Directory.leading_cons_of_stay (part : String) (rest : List String)
    (h : part = "" ∨ part = ".") : leading (part :: rest) = leading rest := by
  refine List.filter_cons_of_neg ?_
  rw [Bool.and_eq_true, bne_iff_ne, bne_iff_ne]
  exact fun hname => h.elim hname.1 hname.2

namespace LeadsDown

variable {path : String} (h : LeadsDown path)

include h

theorem partsOf : Directory.partsOf path = .ok (Directory.splitPath path) := by
  have hne : path ≠ "" := by
    rintro rfl
    rcases h.ends with ⟨last, hlast, hempty, _⟩
    exact hempty (Option.some.inj hlast).symm
  unfold Directory.partsOf
  rw [if_neg (by rwa [beq_iff_eq]), if_neg (Nat.not_lt.mpr h.short)]

/-- The last part is a name, and it comes after the names of the way to it. -/
theorem exists_last : ∃ way last, Directory.splitPath path = way ++ [last] ∧
    last ≠ "" ∧ last ≠ "." ∧ Directory.namesOf path = Directory.leading way ++ [last] := by
  rcases h.ends with ⟨last, hlast, hempty, hpoint⟩
  rcases List.getLast?_eq_some_iff.mp hlast with ⟨way, hway⟩
  refine ⟨way, last, hway, hempty, hpoint, ?_⟩
  rw [Directory.namesOf, hway, Directory.leading, List.filter_append]
  exact congrArg _ (Directory.leading_cons_of_name last [] hempty hpoint)

end LeadsDown

namespace Directory

/-- The place below the working directory under the names. -/
def below (d : Directory) (names : List String) : Place where
  names := d.home ++ names

/-- Every place on the way down by the names is a directory. -/
def OpenTo (d : Directory) (names : List String) : Prop :=
  ∀ before, before <+: names → before ≠ names → d.content? (d.below before) = some .directory

/-- The text can be read under the names. -/
def Holds (d : Directory) (names : List String) (text : String) : Prop :=
  d.OpenTo names ∧ d.content? (d.below names) = some (.file text)

/-- A text can be put under the names, in place of a file if there is one. -/
def Takes (d : Directory) (names : List String) : Prop :=
  d.OpenTo names ∧ d.content? (d.below names) ≠ some .directory

variable (d : Directory)

@[simp]
theorem content?_home : d.content? (d.below []) = some .directory := by
  have habove : (d.home ++ []).isPrefixOf d.home = true :=
    List.isPrefixOf_iff_prefix.mpr ⟨[], by rw [List.append_nil, List.append_nil]⟩
  exact if_pos habove

theorem content?_below (names : List String) (hne : names ≠ []) :
    d.content? (d.below names) = d.contentBelow names := by
  -- What lies below has a longer name than the working directory itself.
  have habove : ¬ (d.home ++ names).isPrefixOf d.home = true := by
    rw [List.isPrefixOf_iff_prefix]
    intro hprefixed
    have hle := hprefixed.length_le
    rw [List.length_append] at hle
    exact hne (List.length_eq_zero_iff.mp (by omega))
  have hnames : d.home.isPrefixOf? (d.home ++ names) = some names :=
    List.isPrefixOf?_eq_some_iff_append_eq.mpr rfl
  unfold content? below
  rw [if_neg habove]
  simp only [hnames]

/-- No device stands below the working directory. -/
theorem content?_below_ne_device (names : List String) (device : Device) :
    d.content? (d.below names) ≠ some (.device device) := by
  by_cases hne : names = []
  · rw [hne, content?_home]
    exact nofun
  · -- There are only files, and the directories that lie above them.
    rw [content?_below d names hne]
    unfold contentBelow
    split
    · exact nofun
    · split <;> exact nofun

theorem enter_stay (place : Place) (part : String) (hdirectory : d.content? place = some .directory)
    (hstay : part = "" ∨ part = ".") : d.enter place part = .ok place := by
  unfold enter
  rw [if_neg (by simp only [hdirectory, ne_eq, not_true_eq_false, not_false_eq_true]), if_pos]
  rcases hstay with rfl | rfl <;> rfl

theorem enter_name (names : List String) (part : String) (hempty : part ≠ "") (hpoint : part ≠ ".")
    (hdown : part ≠ ".." ∧ part.utf8ByteSize ≤ maxNameBytes)
    (hdirectory : d.content? (d.below names) = some .directory)
    (hnext : (d.content? (d.below (names ++ [part]))).isSome = true) :
    d.enter (d.below names) part = .ok (d.below (names ++ [part])) := by
  have hchild : (d.below names).child part = d.below (names ++ [part]) :=
    congrArg Place.mk (List.append_assoc _ _ _)
  unfold enter
  rw [hchild]
  simp only [hdirectory, ne_eq, not_true_eq_false, if_false, Bool.or_eq_true, beq_iff_eq, hempty,
    hpoint, or_self, hdown.1, Nat.not_lt.mpr hdown.2, hnext, if_true]

/-- Following parts goes to the place below the names among them, provided that every
    place it comes through, that one included, is a directory. -/
theorem follow_below (parts names : List String)
    (hdown : ∀ part ∈ parts, part ≠ ".." ∧ part.utf8ByteSize ≤ maxNameBytes)
    (hway : ∀ before, before <+: leading parts →
      d.content? (d.below (names ++ before)) = some .directory) :
    d.follow (d.below names) parts = .ok (d.below (names ++ leading parts)) := by
  -- On the parts, with the names that have been read so far.
  induction parts generalizing names with
  | nil =>
      rw [show leading [] = [] from rfl, List.append_nil]
      rfl
  | cons part rest ih =>
      have hdirectory : d.content? (d.below names) = some .directory := by
        have hnone := hway [] List.nil_prefix
        rwa [List.append_nil] at hnone
      have hrest : ∀ part ∈ rest, part ≠ ".." ∧ part.utf8ByteSize ≤ maxNameBytes :=
        fun other hother => hdown other (List.mem_cons_of_mem _ hother)
      unfold follow at ih ⊢
      rw [List.foldlM_cons]
      by_cases hstay : part = "" ∨ part = "."
      · -- The place stays, and so do the names that are left to be read.
        rw [leading_cons_of_stay part rest hstay] at hway ⊢
        rw [d.enter_stay _ part hdirectory hstay]
        exact ih names hrest hway
      · rw [not_or] at hstay
        rw [leading_cons_of_name part rest hstay.1 hstay.2] at hway ⊢
        have hnext := hway [part] ⟨leading rest, rfl⟩
        rw [d.enter_name names part hstay.1 hstay.2 (hdown part List.mem_cons_self) hdirectory
          (by rw [hnext]; rfl)]
        -- One name has been read, and what is before another one in the rest is before it
        -- in the whole.
        rw [List.append_cons names part (leading rest)]
        refine ih (names ++ [part]) hrest fun before hbefore => ?_
        rw [List.append_assoc]
        exact hway (part :: before) (List.cons_prefix_cons.mpr ⟨rfl, hbefore⟩)

section Paths

variable {path : String} (hpath : LeadsDown path)

include hpath

theorem start_of_leadsDown : d.start path = d.below [] := by
  unfold start below
  rw [hpath.relative, List.append_nil]
  rfl

/-- Down to the last part the way goes through directories. -/
theorem follow_way (hopen : d.OpenTo (namesOf path)) (way : List String) (last : String)
    (hsplit : splitPath path = way ++ [last]) (hnames : namesOf path = leading way ++ [last]) :
    d.follow (d.start path) way = .ok (d.below (leading way)) ∧
      d.content? (d.below (leading way)) = some .directory := by
  have hbefore : ∀ before, before <+: leading way →
      d.content? (d.below before) = some .directory := by
    intro before hbefore
    refine hopen before ?_ ?_
    · rw [hnames]
      exact hbefore.trans (List.prefix_append _ _)
    · -- It lacks the last name at least.
      rintro rfl
      have hle := hbefore.length_le
      rw [hnames, List.length_append, List.length_singleton] at hle
      omega
  refine ⟨?_, hbefore _ List.prefix_rfl⟩
  rw [d.start_of_leadsDown hpath]
  refine d.follow_below way [] (fun part hpart => hpath.down part ?_) hbefore
  rw [hsplit]
  exact List.mem_append_left _ hpart

theorem locate_of_openTo (hopen : d.OpenTo (namesOf path))
    (hsome : (d.content? (d.below (namesOf path))).isSome = true) :
    d.locate path = .ok (d.below (namesOf path)) := by
  rcases hpath.exists_last with ⟨way, last, hsplit, hempty, hpoint, hnames⟩
  rcases d.follow_way hpath hopen way last hsplit hnames with ⟨hfollow, hdirectory⟩
  have hdown := hpath.down last (by rw [hsplit]; exact List.mem_append_right _ List.mem_cons_self)
  rw [hnames] at hsome ⊢
  have henter := d.enter_name (leading way) last hempty hpoint hdown hdirectory hsome
  unfold locate
  rw [hpath.partsOf, hsplit]
  unfold follow at hfollow
  change List.foldlM d.enter (d.start path) (way ++ [last]) = _
  rw [List.foldlM_append, hfollow]
  change List.foldlM d.enter (d.below (leading way)) [last] = _
  rw [List.foldlM_cons, henter]
  rfl

theorem target_of_takes (htakes : d.Takes (namesOf path)) :
    d.target path = .ok (d.below (namesOf path)) := by
  rcases hpath.exists_last with ⟨way, last, hsplit, hempty, hpoint, hnames⟩
  rcases d.follow_way hpath htakes.1 way last hsplit hnames with ⟨hfollow, hdirectory⟩
  have hdown := hpath.down last (by rw [hsplit]; exact List.mem_append_right _ List.mem_cons_self)
  have hchild : (d.below (leading way)).child last = d.below (namesOf path) := by
    rw [hnames]
    exact congrArg Place.mk (List.append_assoc _ _ _)
  -- The last part is a name, so no slash at the end has to be taken off.
  have hnamed : (((way ++ [last]).reverse.dropWhile (· == "")).reverse) = way ++ [last] := by
    rw [List.reverse_append, List.reverse_singleton, List.singleton_append, List.dropWhile_cons,
      if_neg (by rwa [beq_iff_eq]), List.reverse_cons, List.reverse_reverse]
  unfold target
  rw [hpath.partsOf, hsplit]
  simp only [bind, Except.bind, hnamed, List.getLast?_concat, List.dropLast_concat, hfollow,
    hdirectory, ne_eq, not_true_eq_false, if_false, Bool.or_eq_true, beq_iff_eq, hpoint, hdown.1,
    Nat.lt_irrefl, decide_false, or_self, Bool.false_eq_true, Nat.not_lt.mpr hdown.2, hchild,
    htakes.2]

theorem node_of_holds (text : String) (hholds : d.Holds (namesOf path) text) :
    d.node path = .file text := by
  unfold node
  rw [d.locate_of_openTo hpath hholds.1 (by rw [hholds.2]; rfl)]
  simp only [hholds.2]

/-- What can be put somewhere can be created and written there, for there is no device
    that would refuse it. -/
theorem faults_of_takes (htakes : d.Takes (namesOf path)) :
    d.creationFault? path = none ∧ d.writingFault? path = none := by
  have hdevice : d.deviceAt? path = none := by
    unfold deviceAt?
    rw [d.target_of_takes hpath htakes]
    cases hcontent : d.content? (d.below (namesOf path)) with
    | none => simp only [hcontent]
    | some content =>
        cases content with
        | device device => exact absurd hcontent (d.content?_below_ne_device _ device)
        | directory => simp only [hcontent]
        | file text => simp only [hcontent]
  unfold creationFault? writingFault?
  rw [d.target_of_takes hpath htakes, hdevice]
  exact ⟨rfl, rfl⟩

/-- What is put where nothing was is added under its names. -/
theorem added?_of_takes (htakes : d.Takes (namesOf path))
    (hnew : d.content? (d.below (namesOf path)) = none) :
    d.added? path = some ("/".intercalate (namesOf path)) := by
  have hne : namesOf path ≠ [] := by
    intro hnil
    rw [hnil, content?_home] at hnew
    exact nomatch hnew
  have hnames : d.home.isPrefixOf? (d.home ++ namesOf path) = some (namesOf path) :=
    List.isPrefixOf?_eq_some_iff_append_eq.mpr rfl
  rw [d.content?_below _ hne] at hnew
  unfold added?
  rw [d.target_of_takes hpath htakes]
  simp only [below, hnames, hnew, Option.isSome_none, Bool.false_eq_true, if_false]

end Paths

/-- There is nothing on the way to a single name but the working directory. -/
theorem eq_nil_of_prefix_singleton (before : List String) (name : String)
    (hbefore : before <+: [name]) (hproper : before ≠ [name]) : before = [] := by
  rcases List.prefix_cons_iff.mp hbefore with hnil | ⟨rest, hcons, hrest⟩
  · exact hnil
  · rw [List.prefix_nil.mp hrest] at hcons
    exact absurd hcons hproper

theorem openTo_singleton (name : String) : d.OpenTo [name] := by
  intro before hbefore hproper
  rw [eq_nil_of_prefix_singleton before name hbefore hproper]
  exact d.content?_home

/-- A file can be read if no file stands in the way. Every place on the way is then a
    directory, because the file lies below it. -/
theorem holds_of_lookup (names : List String) (text : String) (hne : names ≠ [])
    (hfile : d.files.lookup names = some text)
    (hfree : ∀ before, before ≠ [] → before <+: names → before ≠ names →
      d.files.lookup before = none) :
    d.Holds names text := by
  constructor
  · intro before hbefore hproper
    by_cases hnil : before = []
    · rw [hnil, content?_home]
    · -- The file itself is one that lies below the place.
      have hany : (d.files.any fun file => before.isPrefixOf file.1) = true := by
        rcases List.lookup_eq_some_iff.mp hfile with ⟨earlier, later, hfiles, _⟩
        rw [List.any_eq_true]
        refine ⟨(names, text), ?_, List.isPrefixOf_iff_prefix.mpr hbefore⟩
        rw [hfiles]
        exact List.mem_append_right _ List.mem_cons_self
      rw [d.content?_below before hnil, contentBelow]
      simp only [hfree before hnil hbefore hproper, hany, if_true]
  · rw [d.content?_below names hne, contentBelow]
    simp only [hfile]

section Commands

variable (env : Settings.Environment) (common : Common) (o : ResolveOptions)
  (settings : Settings) (p : Program)

/-- A command gets its report out of a directory that holds its program and takes the
    report, if it has settings. -/
theorem reports (base : Settings) (loaded : Trail) (text : String)
    (hbase : loadSettings d.storage env common.config = (loaded, .ok base))
    (hsettings : o.settings base = .ok settings)
    (hinput : LeadsDown o.input) (hholds : d.Holds (namesOf o.input) text)
    (hload : Program.load text = .ok p)
    (houtput : ∀ path, o.output = some path → LeadsDown path ∧ d.Takes (namesOf path)) :
    Reports d.storage env common o settings p := by
  rcases loadProgram_of_file d.storage loaded o.input text p
    (d.node_of_holds hinput text hholds) hload with ⟨read, hprogram⟩
  rcases deliver_ok d.storage (read.logged (p.analyze settings).log) o (p.analyze settings)
    (fun path hpath => d.faults_of_takes (houtput path hpath).1 (houtput path hpath).2) with
    ⟨delivered, hdelivered⟩
  exact ⟨base, loaded, read, delivered, hbase, hsettings, hprogram, hdelivered⟩

/-- A report that is put where nothing was is all that the command adds to the
    directory. -/
theorem added_execute (path : String) (hreports : Reports d.storage env common o settings p)
    (houtput : o.output = some path) (hpath : LeadsDown path) (htakes : d.Takes (namesOf path))
    (hnew : d.content? (d.below (namesOf path)) = none) :
    d.added (execute d.storage env common (.resolve o)).written =
      [("/".intercalate (namesOf path),
        (o.report (p.analyze settings)).render o.format)] := by
  rw [written_execute d.storage env common o settings p hreports, houtput]
  simp only [Option.map_some, Option.toList_some, added, List.filterMap_cons, List.filterMap_nil,
    d.added?_of_takes hpath htakes hnew]

end Commands

end Directory

end Command

end Monomorph
