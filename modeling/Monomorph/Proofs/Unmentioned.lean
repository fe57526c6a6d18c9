import Monomorph.Proofs.Cycles
import Monomorph.Proofs.Edges
import Monomorph.Proofs.Lookahead

/-!
# Declarations That Nothing Mentions

Appending a declaration leaves everything that was there before as it was, if it
stands at the top level, takes no parameters, and has a name that nothing mentions.

A name can be mentioned as a whole, where one declaration names another, or as a word
of a type argument. Words are what the parser reads as names, so the reason why a
text is read as before is that at every bracket it finds itself behind a character
that is in no name: the words of what is left are words of the whole
(`Scope.readExpr_eq_of_words`). This holds of errors as well as of expressions.

The rest follows the stages of scanning. The new declaration gets the next number and
an entry of its own. It has no link, so it is on no cycle and in no chain but its own,
and where fuel is counted by the size of the table, one more makes no difference.
Then each site and each inheritance relation gives what it gave.

## Main definitions

* `Text.words`: What stands between characters that are in no name.
* `Program.mentioned`: Every name that a program mentions.
* `Scope.AgreesBut`: Scopes in which all names but one mean the same.
* `Table.push`: A table with one more entry.
* `Declaration.StandsApart`: What is asked of the new declaration.

## Theorems

* `Text.words_append_cons`, `Text.words_subset_append`, `Text.mem_words_of_isName`: The
  words of a text and those of its parts.
* `OneAhead.words_subset`: What a reader leaves has no words of its own.
* `Scope.readArgs_eq_of_words`, `Scope.readExpr_eq_of_words`,
  `Scope.parse_eq_of_words`, `Scope.parseArgs_eq_of_words`: A text is read in the same
  way where only a name that is no word of it means something else.
* `Table.size_push`, `Table.get?_push`, `Table.get?_push_size`, `Table.name_push`,
  `Table.find?_push`, `Table.formals_push`, `Table.links_push`: What a table with one
  more entry answers.
* `Links.parent?_concat`, `Links.ancestor?_concat`, `Links.chain_concat`,
  `Links.inRange_concat`, `Links.isOnCycle_concat`: One more declaration without a link
  is in no other's chain.
* `Links.repair_concat`: It changes no other link.
* `registeredFrom_concat`: It is registered last.
* `link_concat`, `link_of_top`, `zipIdx_concat`, `writtenLinks_concat`,
  `filterMap_droppedLink?_concat`: What is written about enclosing stays.
* `Table.entryOf_concat`, `Table.entryOf_last`: Old entries stay, and the new one says
  what was declared.
* `Table.register_concat`: The new entry is appended, and nothing is reported.
* `Table.encloses_push`: What enclosed what still does.
* `Table.agreesBut_push`: Only the new name means something else.
* `Table.scanSite_push`, `Table.scanInheritance_push`: What was written is scanned as
  before.
* `Declaration.StandsApart.not_mem_mentioned`, `Declaration.StandsApart.name_ne`,
  `Declaration.StandsApart.enclosing_ne`, `Declaration.StandsApart.site_not_mem`,
  `Declaration.StandsApart.inheritance_not_mem`: No part of the program has the name.
* `Declaration.StandsApart.registered_declare`,
  `Declaration.StandsApart.register_declare`: What is registered of the larger program.
* `Declaration.StandsApart.scanBody_eq`, `Declaration.StandsApart.declarationEdges_eq`,
  `Declaration.StandsApart.scanHierarchy_eq`, `Declaration.StandsApart.flatMap_declare`:
  What is scanned of it.
* `Declaration.StandsApart.graph_declare`,
  `Declaration.StandsApart.diagnostics_declare`: The graph of the larger program, and
  what is reported about it.
-/

namespace Monomorph

namespace Text

/-- The words of a text: what stands between characters that are in no name. -/
def words (chars : List Char) : List String :=
  (chars.splitOnP fun c => !isNameChar c).map String.ofList

theorem words_append_cons (chars rest : List Char) (c : Char) (hc : isNameChar c = false) :
    words (chars ++ c :: rest) = words chars ++ words rest := by
  rw [words, List.splitOnP_append_cons chars rest (by rw [hc]; rfl), List.map_append]
  rfl

theorem words_subset_append (blanks chars : List Char)
    (hblanks : ∀ c ∈ blanks, isBlank c = true) : words chars ⊆ words (blanks ++ chars) := by
  rcases List.eq_nil_or_concat blanks with rfl | ⟨front, c, rfl⟩
  · exact List.Subset.refl _
  · -- The last blank already separates the text from whatever is before it.
    rw [List.concat_eq_append] at hblanks ⊢
    have hc := isNameChar_of_isBlank c (hblanks c (List.mem_append_right _ List.mem_cons_self))
    rw [List.append_assoc, List.singleton_append, words_append_cons front chars c hc]
    exact List.subset_append_right _ _

/-- A name that no name character follows is a word. -/
theorem mem_words_of_isName (name : String) (rest : List Char) (hname : IsName name)
    (hend : ∀ c ∈ rest.head?, isNameChar c = false) : name ∈ words (name.toList ++ rest) := by
  have hall : ∀ c ∈ name.toList, (!isNameChar c) = false := by
    intro c hc
    rw [hname.isNameChar c hc]
    rfl
  have hself : name ∈ words name.toList := by
    rw [words, List.splitOnP_eq_singleton hall, List.map_singleton, String.ofList_toList]
    exact List.mem_singleton_self name
  cases rest with
  | nil => rwa [List.append_nil]
  | cons c rest =>
      rw [words_append_cons _ rest c (hend c rfl)]
      exact List.mem_append_left _ hself

end Text

/-- What is left behind a character that is in no name has no words that were not
    there before. -/
theorem OneAhead.words_subset {α : Type} {sort : List Token → Prop}
    {reader : List Char → Except Stop (α × List Char)} (hreader : OneAhead sort reader)
    {chars mid tail : List Char} {a : α} (h : reader chars = .ok (a, mid)) {c : Char}
    (hc : Text.isNameChar c = false) (hskip : Text.skipBlanks mid = c :: tail) :
    Text.words tail ⊆ Text.words chars := by
  rcases hreader.ok_skipBlanks h with ⟨read, blanks, _, hchars, _⟩
  rw [hchars, hskip, ← List.append_assoc, Text.words_append_cons _ tail c hc]
  exact List.subset_append_right _ _

namespace Scope

/-- Bare names mean the same in both scopes, and so do applied ones but for one. -/
structure AgreesBut (fresh : String) (scope scope' : Scope) : Prop where
  leaf : ∀ name, scope'.leaf name = scope.leaf name
  applied : ∀ name args, name ≠ fresh → scope'.applied name args = scope.applied name args
  maxNesting : scope'.maxNesting = scope.maxNesting

/-- Arguments are read in the same way if each of them is. -/
theorem readArgs_eq_of_words (fresh : String)
    (item item' : List Char → Except Stop (Expr × List Char)) (hitem : OneAhead Phrase item)
    (hsame : ∀ chars, fresh ∉ Text.words chars → item' chars = item chars) (fuel : Nat)
    (chars : List Char) (hfresh : fresh ∉ Text.words chars) :
    readArgs item' fuel chars = readArgs item fuel chars := by
  -- On the fuel, with what is left behind each comma.
  induction fuel generalizing chars with
  | zero => rfl
  | succ fuel ih =>
      have heq := hsame chars hfresh
      cases hread : item chars with
      | error stop => rw [readArgs_of_error hread, readArgs_of_error (heq.trans hread)]
      | ok pair =>
          rcases pair with ⟨arg, mid⟩
          rcases comma_or_closing (Text.skipBlanks mid) with
            ⟨tail, hskip⟩ | ⟨tail, hskip⟩ | ⟨hcomma, hclosing⟩
          · have htail : fresh ∉ Text.words tail :=
              fun hmem => hfresh (hitem.words_subset hread Marks.comma.isNameChar hskip hmem)
            rw [readArgs_of_comma hread hskip, readArgs_of_comma (heq.trans hread) hskip,
              ih tail htail]
          · rw [readArgs_of_closing hread hskip, readArgs_of_closing (heq.trans hread) hskip]
          · rw [readArgs_of_other hread hcomma hclosing,
              readArgs_of_other (heq.trans hread) hcomma hclosing]

section Agreement

variable {fresh : String} {scope scope' : Scope} (hagrees : AgreesBut fresh scope scope')

include hagrees

/-- A text without the word is read in the same way. -/
theorem readExpr_eq_of_words (levels : Nat) (chars : List Char)
    (hfresh : fresh ∉ Text.words chars) :
    scope'.readExpr levels chars = scope.readExpr levels chars := by
  induction levels generalizing chars with
  | zero => rfl
  | succ levels ih =>
      cases hname : readName chars with
      | error stop => rw [readExpr_of_error hname, readExpr_of_error hname]
      | ok pair =>
          rcases pair with ⟨name, mid⟩
          by_cases hopening : ∃ tail, Text.skipBlanks mid = '<' :: tail
          · rcases hopening with ⟨tail, hskip⟩
            -- The name is a word of the text, and so is every word behind the bracket.
            rcases (readName_eq_ok_iff chars mid name).mp hname with ⟨hisName, hstart, hend⟩
            rcases Text.exists_blanks chars with ⟨blanks, hblanks, hchars⟩
            have hword : name ∈ Text.words chars := by
              rw [hchars, hstart]
              exact Text.words_subset_append blanks _ hblanks
                (Text.mem_words_of_isName name mid hisName hend)
            have hne : name ≠ fresh := fun heq => hfresh (heq ▸ hword)
            have htail : fresh ∉ Text.words tail := fun hmem =>
              hfresh (readName_oneAhead.words_subset hname Marks.opening.isNameChar hskip hmem)
            rw [readExpr_of_opening hname hskip, readExpr_of_opening hname hskip,
              readArgs_eq_of_words fresh _ _ (scope.readExpr_oneAhead levels) ih _ tail htail]
            refine congrArg _ (funext fun args => ?_)
            rw [hagrees.applied name args.1 hne]
          · -- A bare name is not looked up, so it may even be the new one.
            have hbare : ∀ tail, Text.skipBlanks mid ≠ '<' :: tail :=
              fun tail htail => hopening ⟨tail, htail⟩
            rw [readExpr_of_bare hname hbare, readExpr_of_bare hname hbare, hagrees.leaf]

theorem parse_eq_of_words (text : String) (hfresh : fresh ∉ Text.words text.toList) :
    scope'.parse text = scope.parse text := by
  unfold parse readWhole
  rw [hagrees.maxNesting, readExpr_eq_of_words hagrees _ _ hfresh]

theorem parseArgs_eq_of_words (target : String) (texts : List String) (expected : Nat)
    (hfresh : fresh ∉ texts.flatMap fun text => Text.words text.toList) :
    parseArgs scope' target texts expected = parseArgs scope target texts expected := by
  have heach : parseEach scope' target texts = parseEach scope target texts := by
    induction texts with
    | nil => rfl
    | cons text rest ih =>
        rw [List.flatMap_cons, List.mem_append, not_or] at hfresh
        rw [parseEach, parseEach, parse_eq_of_words hagrees text hfresh.1, ih hfresh.2]
  unfold parseArgs
  rw [heach]

end Agreement

end Scope

namespace Table

/-- The table with one more entry at the end. -/
def push (t : Table) (entry : Entry) : Table where
  entries := t.entries ++ [entry]

section Push

variable (t : Table) (entry : Entry)

@[simp]
theorem size_push : (t.push entry).size = t.size + 1 :=
  List.length_append

@[simp]
theorem get?_push (id : DeclId) (hid : id < t.size) : (t.push entry).get? id = t.get? id :=
  List.getElem?_append_left hid

@[simp]
theorem get?_push_size : (t.push entry).get? t.size = some entry :=
  List.getElem?_concat_length

theorem name_push (id : DeclId) (hid : id < t.size) : (t.push entry).name id = t.name id := by
  simp [name, hid]

theorem find?_push (name : String) (hname : name ≠ entry.name) :
    (t.push entry).find? name = t.find? name := by
  have hnone : [entry].findIdx? (fun entry => entry.name == name) = none := by
    rw [List.findIdx?_singleton, beq_eq_false_iff_ne.mpr hname.symm]
    rfl
  rw [find?, push, List.findIdx?_append, hnone, Option.map_none, Option.or_none]
  rfl

/-- An entry without formals does not differ in its formals from none. -/
theorem formals_push (hformals : entry.formals = []) (id : DeclId) :
    (t.push entry).formals id = t.formals id := by
  rcases Nat.lt_trichotomy id t.size with hlt | rfl | hgt
  · simp [formals, hlt]
  · -- The number of the new entry, which before was nobody's.
    have hnone : t.get? t.size = none := List.getElem?_eq_none (Nat.le_refl _)
    simp [formals, hnone, hformals]
  · have hnone : t.get? id = none := List.getElem?_eq_none (Nat.le_of_lt hgt)
    have hnone' : (t.push entry).get? id = none :=
      List.getElem?_eq_none (by rw [← size, size_push]; exact hgt)
    rw [formals, formals, hnone, hnone']

theorem links_push (henclosing : entry.enclosing = none) :
    (t.push entry).links = t.links ++ [none] := by
  rw [links, push, List.map_append, List.map_singleton, henclosing]
  rfl

end Push

end Table

namespace Links

section Concat

variable (links : Links)

@[simp]
theorem parent?_concat (id : DeclId) : parent? (links ++ [none]) id = links.parent? id := by
  unfold parent?
  by_cases hlt : id < links.length
  · rw [List.getElem?_append_left hlt]
  · -- The last has no link, and what is beyond it has none either.
    rw [List.getElem?_append_right (Nat.le_of_not_lt hlt),
      List.getElem?_eq_none (Nat.le_of_not_lt hlt)]
    cases id - links.length <;> rfl

@[simp]
theorem ancestor?_concat (n : Nat) (id : DeclId) :
    ancestor? (links ++ [none]) n id = links.ancestor? n id := by
  induction n generalizing id with
  | zero => rfl
  | succ n ih =>
      rw [ancestor?, ancestor?, parent?_concat]
      exact congrArg _ (funext ih)

@[simp]
theorem chain_concat (fuel : Nat) (id : DeclId) :
    chain (links ++ [none]) fuel id = links.chain fuel id := by
  induction fuel generalizing id with
  | zero => rfl
  | succ fuel ih =>
      rw [chain, chain, parent?_concat]
      cases links.parent? id with
      | none => rfl
      | some parent => simp only [ih]

theorem inRange_concat (hrange : links.InRange) : InRange (links ++ [none]) := by
  intro id parent h
  rw [parent?_concat] at h
  rw [List.length_append]
  exact Nat.lt_of_lt_of_le (hrange id parent h) (Nat.le_add_right _ _)

theorem isOnCycle_concat (hrange : links.InRange) (id : DeclId) :
    isOnCycle (links ++ [none]) id = links.isOnCycle id := by
  rw [Bool.eq_iff_iff, isOnCycle_iff _ (inRange_concat links hrange), isOnCycle_iff _ hrange]
  simp

/-- What has no link is on no cycle, and what else there is to cut is cut as before. -/
theorem repair_concat (hrange : links.InRange) :
    repair (links ++ [none]) = ((repair links).1 ++ [none], (repair links).2) := by
  -- All but the last step are those of the shorter list, and the last one cuts nothing.
  have hfront : ∀ m ≤ links.length, (List.range m).foldl cut (links ++ [none], []) =
      (((List.range m).foldl cut (links, [])).1 ++ [none],
        ((List.range m).foldl cut (links, [])).2) := by
    intro m hm
    induction m with
    | zero => rfl
    | succ m ih =>
        have hbelow := foldl_cut_repairedBelow links hrange m
        rw [List.range_succ, List.foldl_append, List.foldl_append, ih (by omega)]
        simp only [List.foldl_cons, List.foldl_nil, cut_eq _ hbelow.inRange,
          cut_eq (_ ++ [none], _) (inRange_concat _ hbelow.inRange),
          isOnCycle_concat _ hbelow.inRange]
        by_cases hcycle : ((List.range m).foldl cut (links, [])).1.isOnCycle m = true
        · rw [if_pos hcycle, if_pos hcycle,
            List.set_append_left _ _ (by rw [hbelow.length_eq]; omega)]
        · rw [if_neg hcycle, if_neg hcycle]
  have hbelow := foldl_cut_repairedBelow links hrange links.length
  -- A cycle through the last would need a link from it.
  have hlast :
      ((List.range links.length).foldl cut (links, [])).1.isOnCycle links.length = false := by
    rw [Bool.eq_false_iff, ne_eq, isOnCycle_iff _ hbelow.inRange]
    rintro ⟨n, hn⟩
    rcases Option.bind_eq_some_iff.mp hn with ⟨parent, hparent, _⟩
    have hlt := parent?_eq_some_lt _ _ _ hparent
    rw [hbelow.length_eq] at hlt
    exact Nat.lt_irrefl _ hlt
  rw [repair, List.length_append, List.length_singleton, List.range_succ, List.foldl_append,
    hfront _ (Nat.le_refl _), List.foldl_cons, List.foldl_nil,
    cut_eq _ (inRange_concat _ hbelow.inRange), isOnCycle_concat _ hbelow.inRange, hlast]
  rfl

end Concat

end Links

/-- The entry of a declaration that nothing encloses. -/
def Declaration.topEntry (d : Declaration) : Entry where
  name := d.name
  kind := d.kind
  ownParams := d.typeParams
  formals := d.typeParams
  enclosing := none
  requiresSpecialization := d.requiresSpecialization

section Newcomer

variable (ds : List Declaration) (d : Declaration)

theorem registeredFrom_concat (seen : List String) (hseen : d.name ∉ seen)
    (hname : ∀ other ∈ ds, other.name ≠ d.name) :
    registeredFrom seen (ds ++ [d]) = registeredFrom seen ds ++ [d] ∧
      repeatedFrom seen (ds ++ [d]) = repeatedFrom seen ds := by
  -- On the declarations before it, whose names are seen by the time it comes.
  induction ds generalizing seen with
  | nil =>
      have hnot : ¬ seen.contains d.name = true := fun h => hseen (List.contains_iff_mem.mp h)
      simp only [List.nil_append, registeredFrom, repeatedFrom, if_neg hnot, and_self]
  | cons first rest ih =>
      have hrest : ∀ other ∈ rest, other.name ≠ d.name :=
        fun other hother => hname other (List.mem_cons_of_mem _ hother)
      simp only [List.cons_append, registeredFrom, repeatedFrom]
      by_cases hfirst : seen.contains first.name = true
      · rcases ih seen hseen hrest with ⟨hregistered, hrepeated⟩
        simp only [if_pos hfirst, hregistered, hrepeated, and_self]
      · have hseen' : d.name ∉ first.name :: seen := by
          rw [List.mem_cons, not_or]
          exact ⟨fun heq => hname first List.mem_cons_self heq.symm, hseen⟩
        rcases ih (first.name :: seen) hseen' hrest with ⟨hregistered, hrepeated⟩
        simp only [if_neg hfirst, hregistered, hrepeated, List.cons_append, and_self]

theorem link_concat (names : List String) (name : String) (id : DeclId)
    (henclosing : d.enclosing ≠ some name) : link (names ++ [name]) id d = link names id d := by
  unfold link
  cases h : d.enclosing with
  | none => rfl
  | some enclosing =>
      have hne : name ≠ enclosing := fun heq => henclosing (h.trans (congrArg some heq.symm))
      have hnone : [name].findIdx? (· == enclosing) = none := by
        rw [List.findIdx?_singleton, beq_eq_false_iff_ne.mpr hne]
        rfl
      simp only [List.findIdx?_append, hnone, Option.map_none, Option.or_none]

@[simp]
theorem link_of_top (names : List String) (id : DeclId) (htop : d.enclosing = none) :
    link names id d = .ok none := by
  unfold link
  rw [htop]

theorem zipIdx_concat : (ds ++ [d]).zipIdx = ds.zipIdx ++ [(d, ds.length)] := by
  rw [List.zipIdx_append, Nat.zero_add]
  rfl

variable (htop : d.enclosing = none) (houter : ∀ other ∈ ds, other.enclosing ≠ some d.name)

include htop houter

theorem writtenLinks_concat : writtenLinks (ds ++ [d]) = writtenLinks ds ++ [none] := by
  rw [writtenLinks, zipIdx_concat, List.map_append, List.map_singleton, List.map_append,
    List.map_singleton, link_of_top d _ _ htop]
  refine congrArg (· ++ [none]) (List.map_congr_left fun pair hpair => ?_)
  rw [link_concat pair.1 _ _ _ (houter pair.1 (List.fst_mem_of_mem_zipIdx hpair))]

theorem filterMap_droppedLink?_concat :
    (ds ++ [d]).zipIdx.filterMap (droppedLink? ((ds ++ [d]).map Declaration.name)) =
      ds.zipIdx.filterMap (droppedLink? (ds.map Declaration.name)) := by
  have hlast : droppedLink? ((ds ++ [d]).map Declaration.name) (d, ds.length) = none := by
    rw [droppedLink?, link_of_top d _ _ htop]
  rw [zipIdx_concat, List.filterMap_append, List.filterMap_cons_none hlast, List.filterMap_nil,
    List.append_nil, List.map_append, List.map_singleton]
  refine List.filterMap_congr fun pair hpair => ?_
  rw [droppedLink?, droppedLink?,
    link_concat pair.1 _ _ _ (houter pair.1 (List.fst_mem_of_mem_zipIdx hpair))]

end Newcomer

namespace Table

/-- Declarations keep their entries. Their chains end before the table does, so it
    makes no difference that there is one more to look at. -/
theorem entryOf_concat (ds : List Declaration) (d : Declaration) (links : Links)
    (hparams : d.typeParams = []) (hlength : links.length = ds.length) (hrange : links.InRange)
    (hacyclic : links.Acyclic) (id : DeclId) (hid : id < ds.length) (other : Declaration) :
    entryOf (ds ++ [d]) (links ++ [none]) id other = entryOf ds links id other := by
  -- What it adds to the formals of others is what a number beyond the table adds.
  have houter : ∀ outer : DeclId, ((ds ++ [d])[outer]?).elim [] Declaration.typeParams =
      (ds[outer]?).elim [] Declaration.typeParams := by
    intro outer
    by_cases hlt : outer < ds.length
    · rw [List.getElem?_append_left hlt]
    · rw [List.getElem?_append_right (Nat.le_of_not_lt hlt),
        List.getElem?_eq_none (Nat.le_of_not_lt hlt)]
      cases outer - ds.length with
      | zero => exact hparams
      | succ n => rfl
  have hend : links.ancestor? ds.length id = none := by
    rw [← hlength] at hid ⊢
    exact Links.ancestor?_length_eq_none links hrange hacyclic id hid
  simp [entryOf, houter, Links.chain_add links ds.length 1 id hend]

theorem entryOf_last (ds : List Declaration) (d : Declaration) (links : Links)
    (hlength : links.length = ds.length) :
    entryOf (ds ++ [d]) (links ++ [none]) ds.length d = d.topEntry := by
  have hparent : Links.parent? (links ++ [none]) ds.length = none := by
    rw [Links.parent?, ← hlength, List.getElem?_concat_length]
    rfl
  simp only [entryOf, Declaration.topEntry, hparent, List.length_append, List.length_singleton,
    Links.chain, List.reverse_singleton, List.flatMap_singleton, List.getElem?_concat_length,
    Option.elim_some]

/-- Registering one more declaration, which names nothing and is named by nothing,
    appends its entry and reports nothing. -/
theorem register_concat (ds : List Declaration) (d : Declaration)
    (hname : ∀ other ∈ ds, other.name ≠ d.name)
    (houter : ∀ other ∈ ds, other.enclosing ≠ some d.name) (htop : d.enclosing = none)
    (hparams : d.typeParams = []) :
    register (ds ++ [d]) = ((register ds).1.push d.topEntry, (register ds).2) := by
  rcases registeredFrom_concat ds d [] List.not_mem_nil hname with ⟨hregistered, hrepeated⟩
  have houter' : ∀ other ∈ registered ds, other.enclosing ≠ some d.name :=
    fun other hother => houter other (registeredFrom_subset [] ds hother)
  have hrange := inRange_writtenLinks (registered ds)
  have hwritten := writtenLinks_concat (registered ds) d htop houter'
  have hrepair := Links.repair_concat _ hrange
  rcases enclosureLinks_acyclic ds with ⟨hlength, hinRange, hacyclic⟩
  have hlinks : enclosureLinks (ds ++ [d]) = enclosureLinks ds ++ [none] := by
    change (writtenLinks (registered (ds ++ [d]))).repair.1 =
      (writtenLinks (registered ds)).repair.1 ++ [none]
    rw [registered, hregistered, ← registered, hwritten, hrepair]
  -- Entry by entry: the old ones do not look at the new declaration.
  have hentries : (register (ds ++ [d])).1.entries = (register ds).1.entries ++ [d.topEntry] := by
    rw [entries_register, registered, hregistered, ← registered, hlinks, zipIdx_concat,
      List.map_append, List.map_singleton, entryOf_last _ d _ hlength, entries_register]
    refine congrArg (· ++ [d.topEntry]) (List.map_congr_left fun pair hpair => ?_)
    have hid : pair.2 < (registered ds).length := List.snd_lt_of_mem_zipIdx hpair
    exact entryOf_concat _ d _ hparams hlength hinRange hacyclic pair.2 hid pair.1
  refine Prod.ext (congrArg Table.mk hentries) ?_
  rw [reported_register, reported_register, repeated, hrepeated, ← repeated, registered,
    hregistered, ← registered, filterMap_droppedLink?_concat _ d htop houter', hwritten, hrepair]
  refine congrArg _ (List.map_congr_left fun id hid => ?_)
  -- What is cut was there before.
  rcases Relation.TransGen.head'_iff.mp ((mem_repair_writtenLinks_iff ds id).mp hid).1 with
    ⟨_, ⟨_, other, _, hget, _⟩, _⟩
  have hlt : id < ((registered ds).map Declaration.name).length := by
    rw [List.length_map]
    exact (List.getElem?_eq_some_iff.mp hget).1
  rw [List.map_append, List.getElem?_append_left hlt]

theorem encloses_push (ds : List Declaration) (entry : Entry) (htop : entry.enclosing = none)
    (outer inner : DeclId) (hinner : inner < (register ds).1.size) :
    ((register ds).1.push entry).encloses outer inner = (register ds).1.encloses outer inner := by
  -- The table is larger by one, and with it the fuel of the chain.
  rw [encloses, encloses, chain, size_push, links_push _ _ htop, Links.chain_concat,
    chain_register_add ds inner hinner 1]

end Table

/-- What a site mentions: its target, and every word of its arguments. -/
def Site.mentioned (site : Site) : List String :=
  site.target :: site.typeArgs.flatMap fun text => Text.words text.toList

/-- What a declaration mentions: its own name, that of what encloses it, and whatever
    its sites do. The names of its parameters do not count unless they are used. -/
def Declaration.mentioned (d : Declaration) : List String :=
  d.name :: (d.enclosing.toList ++ d.body.flatMap Site.mentioned)

/-- What an inheritance relation mentions. -/
def Inheritance.mentioned (i : Inheritance) : List String :=
  i.derived :: i.base :: i.typeArgs.flatMap fun text => Text.words text.toList

/-- Every name that a program mentions. -/
def Program.mentioned (p : Program) : List String :=
  p.declarations.flatMap Declaration.mentioned ++ p.hierarchy.flatMap Inheritance.mentioned

/-- A declaration at the top level, without parameters, whose name nothing in the
    program mentions. -/
structure Declaration.StandsApart (p : Program) (d : Declaration) : Prop where
  enclosing : d.enclosing = none
  typeParams : d.typeParams = []
  name : d.name ∉ p.mentioned

namespace Table

section Scanning

variable (ds : List Declaration) (entry : Entry) (htop : entry.enclosing = none)
  (hformals : entry.formals = []) (limit : Nat)

include hformals

theorem agreesBut_push (t : Table) (formals : List String) :
    Scope.AgreesBut entry.name (({ formals, table := t } : Scope).withMaxNesting limit)
      (({ formals, table := t.push entry } : Scope).withMaxNesting limit) := by
  refine ⟨fun _ => rfl, fun name args hname => ?_, rfl⟩
  simp only [Scope.applied, Scope.withMaxNesting, find?_push t entry name hname,
    formals_push t entry hformals]
  rfl

theorem scanInheritance_push (t : Table) (i : Inheritance) (hfresh : entry.name ∉ i.mentioned) :
    scanInheritance (t.push entry) limit i = scanInheritance t limit i := by
  rw [Inheritance.mentioned, List.mem_cons, List.mem_cons, not_or, not_or] at hfresh
  rcases hfresh with ⟨hderived, hbase, hwords⟩
  simp only [scanInheritance, find?_push t entry _ (Ne.symm hderived),
    find?_push t entry _ (Ne.symm hbase), formals_push t entry hformals,
    Scope.parseArgs_eq_of_words (agreesBut_push entry hformals limit t _) _ _ _ hwords]

include htop

theorem scanSite_push (caller : DeclId) (hcaller : caller < (register ds).1.size) (site : Site)
    (hfresh : entry.name ∉ site.mentioned) :
    scanSite ((register ds).1.push entry) limit caller site =
      scanSite (register ds).1 limit caller site := by
  rw [Site.mentioned, List.mem_cons, not_or] at hfresh
  rcases hfresh with ⟨htarget, hwords⟩
  unfold scanSite
  rw [find?_push _ entry _ (Ne.symm htarget)]
  cases hfind : (register ds).1.find? site.target with
  | none => rfl
  | some callee =>
      have hcallee := (register ds).1.find?_lt_size site.target callee hfind
      -- The caller was there before, and so was all that encloses it.
      have hcaptured : ∀ target written,
          capturedFormals ((register ds).1.push entry) caller target written =
            capturedFormals (register ds).1 caller target written := by
        intro target written
        simp only [capturedFormals, encloses_push ds entry htop _ caller hcaller]
      simp only [get?_push _ entry callee hcallee, hcaptured, formals_push _ entry hformals,
        Scope.parseArgs_eq_of_words (agreesBut_push entry hformals limit _ _) _ _ _ hwords]

end Scanning

end Table

namespace Declaration.StandsApart

variable {p : Program} {d : Declaration} (h : d.StandsApart p)

include h

theorem not_mem_mentioned (other : Declaration) (hother : other ∈ p.declarations) :
    d.name ∉ other.mentioned :=
  fun hmem => h.name (List.mem_append_left _ (List.mem_flatMap.mpr ⟨other, hother, hmem⟩))

theorem name_ne (other : Declaration) (hother : other ∈ p.declarations) : other.name ≠ d.name :=
  fun heq => h.not_mem_mentioned other hother (heq ▸ List.mem_cons_self)

theorem enclosing_ne (other : Declaration) (hother : other ∈ p.declarations) :
    other.enclosing ≠ some d.name := by
  intro heq
  refine h.not_mem_mentioned other hother (List.mem_cons_of_mem _ (List.mem_append_left _ ?_))
  rw [heq]
  exact List.mem_singleton_self _

theorem site_not_mem (other : Declaration) (hother : other ∈ p.declarations) (site : Site)
    (hsite : site ∈ other.body) : d.name ∉ site.mentioned :=
  fun hmem => h.not_mem_mentioned other hother (List.mem_cons_of_mem _
    (List.mem_append_right _ (List.mem_flatMap.mpr ⟨site, hsite, hmem⟩)))

theorem inheritance_not_mem (i : Inheritance) (hi : i ∈ p.hierarchy) : d.name ∉ i.mentioned :=
  fun hmem => h.name (List.mem_append_right _ (List.mem_flatMap.mpr ⟨i, hi, hmem⟩))

theorem registered_declare :
    registered (p.declare d).declarations = registered p.declarations ++ [d] :=
  (registeredFrom_concat p.declarations d [] List.not_mem_nil h.name_ne).1

theorem register_declare : Table.register (p.declare d).declarations =
    ((Table.register p.declarations).1.push d.topEntry, (Table.register p.declarations).2) :=
  Table.register_concat p.declarations d h.name_ne h.enclosing_ne h.enclosing h.typeParams

section Scan

variable (limit : Nat)

theorem scanBody_eq (id : DeclId) (other : Declaration)
    (hget : (registered p.declarations)[id]? = some other) :
    scanBody ((Table.register p.declarations).1.push d.topEntry) limit id other =
      scanBody (Table.register p.declarations).1 limit id other := by
  have hid := Table.lt_size_register p.declarations id other hget
  have hother := registeredFrom_subset [] p.declarations (List.mem_of_getElem? hget)
  refine List.map_congr_left fun site hsite => ?_
  rw [Table.scanSite_push p.declarations d.topEntry rfl h.typeParams limit id hid site
    (h.site_not_mem other hother site hsite)]

theorem declarationEdges_eq (id : DeclId) (other : Declaration)
    (hget : (registered p.declarations)[id]? = some other) :
    declarationEdges ((Table.register p.declarations).1.push d.topEntry) limit id other =
      declarationEdges (Table.register p.declarations).1 limit id other := by
  have hid := Table.lt_size_register p.declarations id other hget
  have hnested := Table.register_isNested p.declarations
  rw [declarationEdges, declarationEdges, h.scanBody_eq limit id other hget,
    Table.get?_push _ _ id hid]
  cases hentry : (Table.register p.declarations).1.get? id with
  | none => rfl
  | some entry =>
      have hmember : memberEdge? ((Table.register p.declarations).1.push d.topEntry) id entry =
          memberEdge? (Table.register p.declarations).1 id entry := by
        unfold memberEdge?
        cases henclosing : entry.enclosing with
        | none => rfl
        | some owner =>
            -- The owner is in the old table too.
            have howner := hnested.enclosing_lt id entry owner hentry henclosing
            simp only [Table.get?_push _ _ owner howner]
      rw [Option.bind_some, Option.bind_some, hmember]

theorem scanHierarchy_eq :
    scanHierarchy ((Table.register p.declarations).1.push d.topEntry) limit p.hierarchy =
      scanHierarchy (Table.register p.declarations).1 limit p.hierarchy := by
  refine List.map_congr_left fun i hi => ?_
  rw [Table.scanInheritance_push d.topEntry h.typeParams limit _ i (h.inheritance_not_mem i hi)]

/-- What is collected from the declarations is what was collected before, followed by
    what the new one gives. -/
theorem flatMap_declare {α : Type} (f f' : DeclId → Declaration → List α)
    (hsame : ∀ id other, (registered p.declarations)[id]? = some other →
      f' id other = f id other) :
    ((registered (p.declare d).declarations).zipIdx.flatMap fun body => f' body.2 body.1) =
      ((registered p.declarations).zipIdx.flatMap fun body => f body.2 body.1) ++
        f' (Table.register p.declarations).1.size d := by
  rw [h.registered_declare, zipIdx_concat, List.flatMap_append, List.flatMap_singleton,
    Table.size_register]
  refine congrArg (· ++ _) (List.flatMap_congr fun body hbody => ?_)
  exact hsame body.2 body.1 (List.mem_zipIdx_iff_getElem?.mp hbody)

/-- The graph of the larger program is that of the smaller one with one more entry,
    and with whatever edges are found there. -/
theorem graph_declare :
    ((p.declare d).scan limit).graph.table = (p.scan limit).graph.table.push d.topEntry ∧
    ((p.declare d).scan limit).graph.edges = (p.scan limit).graph.edges ++
      declarationEdges ((p.scan limit).graph.table.push d.topEntry) limit
        (p.scan limit).graph.table.size d ∧
    ((p.declare d).scan limit).graph.hierarchy = (p.scan limit).graph.hierarchy := by
  have hedges := h.flatMap_declare _ _ (h.declarationEdges_eq limit)
  refine ⟨?_, ?_, ?_⟩
  · rw [Program.table_scan, h.register_declare]
    rfl
  · rw [Program.edges_scan, h.register_declare]
    exact hedges
  · rw [Program.hierarchy_scan, h.register_declare]
    exact congrArg successes (h.scanHierarchy_eq limit)

/-- If there is nothing to report about the new declaration, then the same is reported
    as before. -/
theorem diagnostics_declare
    (hnone : failures (scanBody ((p.scan limit).graph.table.push d.topEntry) limit
      (p.scan limit).graph.table.size d) = []) :
    ((p.declare d).scan limit).diagnostics = (p.scan limit).diagnostics := by
  have hsites := h.flatMap_declare
    (fun id other => failures (scanBody (Table.register p.declarations).1 limit id other))
    (fun id other => failures
      (scanBody ((Table.register p.declarations).1.push d.topEntry) limit id other))
    (fun id other hget => by rw [h.scanBody_eq limit id other hget])
  rw [Program.diagnostics_scan, h.register_declare, hsites,
    show (p.declare d).hierarchy = p.hierarchy from rfl, h.scanHierarchy_eq limit,
    show failures (scanBody ((Table.register p.declarations).1.push d.topEntry) limit
      (Table.register p.declarations).1.size d) = [] from hnone, List.append_nil]
  rfl

end Scan

end Declaration.StandsApart

end Monomorph
