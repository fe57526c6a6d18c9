import Monomorph.Error
import Monomorph.Json.Write
import Monomorph.Proofs.Quotation
import Monomorph.Proofs.Scope

/-!
# Documents Are Read Back

A program that is written as a document is read back as it was, so nothing is lost
or changed between two tools that exchange programs in this way.

Readers take text from the front and hand on what follows, so `Reads` says of a
value that its reader takes exactly what was written for it, whatever follows. That
alone does not carry through arrays and objects. Before a value stands the white
space of its layout, and it is by the first character of a value that a reader
tells an element from the end of an array and something from null, so `Reads` has
both in it.

Arrays and objects are loops that stop at their closing bracket. After the first
entry every round begins with a comma, and `entries_cons` brings what was written
into that form. For an array the induction is then on the values
(`elements_written`). For an object it is on the fields that have been gathered,
and which of those leads to which is `Gathers`: a writer may leave a field out, as
long as the draft that is reached in the end still gives the value
(`reads_record`).

What is written by `Program.render` is read back whether or not names are missing in
the program. Loading looks at names after reading, so it gives the program or the
fault that looking at the program itself gives.

## Main definitions

* `Json.IsGap`: Nothing but white space.
* `Json.Reads`: A reader takes back what was written for a value.
* `Json.Gathers`: Reading fields in turn leads from one draft to another.

## Theorems

* `Json.Reads.ne_nil`: Something is written for a value.
* `Json.isGap_nil`, `Json.isGap_lineBreak`, `Json.skipSpace_gap`, `Json.readColon_colon`:
  White space is skipped.
* `Json.openings_cases`, `Json.isSpace_opening`, `Json.ne_closing_of_opening`: A value
  starts neither like white space nor like the end of an array.
* `Json.reads_text`, `Json.reads_boolean`, `Json.reads_variant`,
  `Json.Reads.optional`: Single values are read back.
* `Json.Reads.field`: So is a value after its key.
* `Json.Writer.entries_cons`, `Json.Writer.following_cons_append`,
  `Json.Writer.bracketed_cons`, `Json.Writer.member_append`: What stands between two
  brackets.
* `Json.Writer.length_le_following`, `Json.Writer.exists_fuel`: There is fuel for every
  entry.
* `Json.nextElement_first`, `Json.nextElement_following`, `Json.elements_close`,
  `Json.elements_succ`: One round of reading an array.
* `Json.elements_written`, `Json.reads_array`: Arrays are read back.
* `Json.nextKey_first`, `Json.nextKey_following`, `Json.members_close`,
  `Json.members_succ`: One round of reading an object.
* `Json.Gathers.append`: Fields are gathered one part after the other.
* `Json.members_written`, `Json.reads_record`: Objects are read back.
* `lookup_word_kind`, `lookup_word_siteKind`, `reads_texts`: So are kinds and lists of
  texts.
* `Site.reads_write`, `Declaration.reads_write`, `Inheritance.reads_write`,
  `Program.reads_write`: So are the facts about a program.
* `Program.read_render`: So is a document.
* `Program.load_eq_checkShape`, `Program.checkShape_eq_ok`, `Program.checkShape_of_load`:
  What loading asks of a program, and that it asks no more of what it gave.
* `Program.load_render`: Loading what was written is looking at its names.
-/

namespace Monomorph

namespace Json

/-- Nothing but white space. -/
def IsGap (gap : List Char) : Prop :=
  ∀ c ∈ gap, isSpace c = true

/-- The characters with which a value starts that is not null. -/
def openings : List Char :=
  ['"', '[', '\x7b', 't', 'f']

/-- What is written for a value is taken back by a reader, under every layout, after
    any white space and before any other text, and it starts as a value does. -/
structure Reads {α : Type} (read : Reader α) (value : α) (written : Writer) : Prop where
  opens : ∀ layout, ∃ c ∈ openings, ∃ tail, written layout = c :: tail
  undoes : ∀ layout gap rest, IsGap gap →
    read (gap ++ (written layout ++ rest)) = .ok (value, rest)

theorem Reads.ne_nil {α : Type} {read : Reader α} {value : α} {written : Writer}
    (h : Reads read value written) (layout : Layout) : written layout ≠ [] := by
  rcases h.opens layout with ⟨c, _, tail, htail⟩
  rw [htail]
  exact List.cons_ne_nil c tail

section Gaps

@[simp]
theorem isGap_nil : IsGap [] :=
  fun _ h => absurd h List.not_mem_nil

@[simp]
theorem isGap_lineBreak (layout : Layout) : IsGap layout.lineBreak := by
  cases layout with
  | compact => exact isGap_nil
  | pretty depth =>
      -- A new line and the spaces of the indentation.
      intro c hc
      rcases List.mem_cons.mp hc with rfl | hc
      · rfl
      · rw [List.eq_of_mem_replicate hc]
        rfl

/-- A gap is skipped up to the first character that is no white space. -/
theorem skipSpace_gap (gap : List Char) (hgap : IsGap gap) (c : Char) (hc : isSpace c = false)
    (s : List Char) : skipSpace (gap ++ c :: s) = c :: s := by
  rw [skipSpace, List.dropWhile_append_of_pos hgap]
  exact List.dropWhile_cons_of_neg (Bool.eq_false_iff.mp hc)

/-- After a key its colon is read, and at most a gap is left before the value. -/
theorem readColon_colon (layout : Layout) (s : List Char) :
    ∃ gap, IsGap gap ∧ readColon (layout.colon ++ s) = .ok (gap ++ s) := by
  cases layout with
  | compact => exact ⟨[], isGap_nil, rfl⟩
  | pretty depth =>
      refine ⟨[' '], fun c hc => ?_, rfl⟩
      rw [List.mem_singleton.mp hc]
      rfl

theorem openings_cases (c : Char) (h : c ∈ openings) :
    c = '"' ∨ c = '[' ∨ c = '\x7b' ∨ c = 't' ∨ c = 'f' := by
  simpa only [openings, List.mem_cons, List.not_mem_nil, or_false] using h

theorem isSpace_opening (c : Char) (h : c ∈ openings) : isSpace c = false := by
  rcases openings_cases c h with rfl | rfl | rfl | rfl | rfl <;> rfl

theorem ne_closing_of_opening (c : Char) (h : c ∈ openings) : c ≠ ']' := by
  rcases openings_cases c h with rfl | rfl | rfl | rfl | rfl <;> decide

end Gaps

section Values

theorem reads_text (value : String) : Reads text value (Writer.text value) := by
  refine ⟨fun _ => ⟨'"', List.mem_cons_self, _, rfl⟩, fun layout gap rest hgap => ?_⟩
  rw [Writer.text, writeText_append, text, skipSpace_gap gap hgap _ rfl]
  exact readText_written value rest

theorem reads_boolean (value : Bool) : Reads boolean value (Writer.boolean value) := by
  cases value with
  | true =>
      refine ⟨fun _ => ⟨'t', by decide, _, rfl⟩, fun layout gap rest hgap => ?_⟩
      change boolean (gap ++ 't' :: 'r' :: 'u' :: 'e' :: rest) = _
      rw [boolean, skipSpace_gap gap hgap _ rfl]
      rfl
  | false =>
      refine ⟨fun _ => ⟨'f', by decide, _, rfl⟩, fun layout gap rest hgap => ?_⟩
      change boolean (gap ++ 'f' :: 'a' :: 'l' :: 's' :: 'e' :: rest) = _
      rw [boolean, skipSpace_gap gap hgap _ rfl]
      rfl

/-- A name that stands for a value is read back as that value. -/
theorem reads_variant {α : Type} (choices : List (String × α)) (name : String) (value : α)
    (h : choices.lookup name = some value) : Reads (variant choices) value (Writer.text name) := by
  refine ⟨(reads_text name).opens, fun layout gap rest hgap => ?_⟩
  rw [Writer.text, writeText_append, variant, skipSpace_gap gap hgap _ rfl]
  -- A variant is read as a string first, which is then looked up.
  change (readText _ >>= _) = _
  rw [readText_written]
  change (named choices name >>= _) = _
  rw [named, h]
  rfl

/-- What does not start as null does is read as something. -/
theorem Reads.optional {α : Type} {read : Reader α} {value : α} {written : Writer}
    (h : Reads read value written) : Reads (Json.optional read) (some value) written := by
  refine ⟨h.opens, fun layout gap rest hgap => ?_⟩
  have hread := h.undoes layout [] rest isGap_nil
  rcases h.opens layout with ⟨c, hc, tail, htail⟩
  rw [htail, List.cons_append] at hread ⊢
  rw [Json.optional, skipSpace_gap gap hgap c (isSpace_opening c hc)]
  have hbind : (read (c :: (tail ++ rest)) >>= fun found =>
      Except.ok (some found.1, found.2)) = .ok (some value, rest) := by
    rw [show read (c :: (tail ++ rest)) = .ok (value, rest) from hread]
    rfl
  -- Null starts with none of these, so the given reader is asked.
  rcases openings_cases c hc with rfl | rfl | rfl | rfl | rfl <;> exact hbind

end Values

/-- A field that was not given before is read back after its key. -/
theorem Reads.field {α σ : Type} {read : Reader α} {value : α} {written : Writer}
    (h : Reads read value written) (key : String) (fill : α → σ) (layout : Layout)
    (rest : List Char) :
    (do
      let (found, rest) ← once key none read (layout.colon ++ (written layout ++ rest))
      .ok (fill found, rest) : Except Fault (σ × List Char)) = .ok (fill value, rest) := by
  have honce : once key none read (layout.colon ++ (written layout ++ rest)) =
      .ok (value, rest) := by
    rcases readColon_colon layout (written layout ++ rest) with ⟨gap, hgap, hcolon⟩
    change (readColon (layout.colon ++ (written layout ++ rest)) >>= read) = _
    rw [hcolon]
    exact h.undoes layout gap rest hgap
  rw [honce]
  rfl

namespace Writer

/-- The text of entries under a layout, each after a comma. -/
def following (layout : Layout) (entries : List Writer) : List Char :=
  entries.flatMap fun entry => ',' :: (layout.lineBreak ++ entry layout)

/-- What stands between brackets is the first entry, and then each other one after a
    comma. -/
theorem entries_cons (layout : Layout) (entry : Writer) (more : List Writer) :
    entries layout (entry :: more) =
      layout.lineBreak ++ (entry layout ++ following layout more) := by
  -- On the entries after the first, which is a different one each time.
  induction more generalizing entry with
  | nil =>
      rw [following, List.flatMap_nil, List.append_nil]
      rfl
  | cons next more ih =>
      rw [entries, ih next, following, following, List.flatMap_cons, List.append_assoc,
        List.cons_append, List.append_assoc]
      exact List.cons_ne_nil next more

theorem following_cons_append (layout : Layout) (entry : Writer) (more : List Writer)
    (rest : List Char) :
    following layout (entry :: more) ++ rest =
      ',' :: (layout.lineBreak ++ (entry layout ++ (following layout more ++ rest))) := by
  simp only [following, List.flatMap_cons, List.cons_append, List.append_assoc]

/-- Each entry takes a comma at least. -/
theorem length_le_following (layout : Layout) (entries : List Writer) :
    entries.length ≤ (following layout entries).length := by
  induction entries with
  | nil => exact Nat.le_refl _
  | cons entry more ih =>
      have hcons := congrArg List.length (following_cons_append layout entry more [])
      simp only [List.append_nil, List.length_cons, List.length_append] at hcons ⊢
      omega

theorem bracketed_cons (opening closing : Char) (entry : Writer) (more : List Writer)
    (layout : Layout) (rest : List Char) :
    bracketed opening closing (entry :: more) layout ++ rest =
      opening :: (layout.inner.lineBreak ++ (entry layout.inner ++
        (following layout.inner more ++ (layout.lineBreak ++ closing :: rest)))) := by
  change (opening :: entries layout.inner (entry :: more) ++ layout.lineBreak ++ [closing]) ++
    rest = _
  rw [entries_cons]
  simp only [List.cons_append, List.append_assoc, List.nil_append]

theorem member_append (key : String) (written : Writer) (layout : Layout) (rest : List Char) :
    member key written layout ++ rest =
      writeText key ++ (layout.colon ++ (written layout ++ rest)) := by
  simp only [member, List.append_assoc]

/-- The text after an opening bracket is fuel enough for one round for each entry and
    one for the closing bracket: an entry has a character, and each one after the
    first has a comma. -/
theorem exists_fuel (layout : Layout) (entry : Writer) (more : List Writer)
    (hentry : entry layout.inner ≠ []) (closing : Char) (rest : List Char) :
    ∃ fuel, more.length < fuel ∧
      (layout.inner.lineBreak ++ (entry layout.inner ++ (following layout.inner more ++
        (layout.lineBreak ++ closing :: rest)))).length = fuel + 1 := by
  -- The closing bracket is there as well, so the fuel is more than what is left to do.
  have hfirst := List.length_pos_iff.mpr hentry
  have hmore := length_le_following layout.inner more
  simp only [List.length_append, List.length_cons]
  exact ⟨_, by omega, (Nat.sub_add_cancel (by omega)).symm⟩

end Writer

section Arrays

variable {α : Type} {read : Reader α} {value : α} {written : Writer}

theorem nextElement_first (h : Reads read value written) (layout : Layout) (gap rest : List Char)
    (hgap : IsGap gap) :
    nextElement true (gap ++ (written layout ++ rest)) = .ok (true, written layout ++ rest) := by
  rcases h.opens layout with ⟨c, hc, tail, htail⟩
  have hclosing := ne_closing_of_opening c hc
  have hskip := skipSpace_gap gap hgap c (isSpace_opening c hc) (tail ++ rest)
  rw [htail, List.cons_append]
  simp only [nextElement, hskip, if_true]

theorem nextElement_following (h : Reads read value written) (layout : Layout)
    (gap rest : List Char) (hgap : IsGap gap) :
    nextElement false (',' :: (gap ++ (written layout ++ rest))) =
      .ok (true, written layout ++ rest) := by
  -- After the comma the value begins, and not the end, which would be a fault there.
  rcases h.opens layout with ⟨c, hc, tail, htail⟩
  have hclosing := ne_closing_of_opening c hc
  have hskip := skipSpace_gap gap hgap c (isSpace_opening c hc) (tail ++ rest)
  have hcomma : ∀ s, skipSpace (',' :: s) = ',' :: s := fun _ => rfl
  rw [htail, List.cons_append]
  simp only [nextElement, hcomma, Char.reduceEq, false_implies, hskip, Bool.false_eq_true,
    if_false, if_true]

theorem elements_close (read : Reader α) (isFirst : Bool) (fuel : Nat) (gap rest : List Char)
    (hgap : IsGap gap) :
    elements read (fuel + 1) isFirst (gap ++ ']' :: rest) = .ok ([], rest) := by
  rw [elements, nextElement, skipSpace_gap gap hgap ']' rfl]
  rfl

/-- A round of reading takes back an element, if the next rounds take back the
    others. -/
theorem elements_succ (h : Reads read value written) (layout : Layout) (isFirst : Bool)
    (fuel : Nat) (s more rest : List Char) (values : List α)
    (hnext : nextElement isFirst s = .ok (true, written layout ++ more))
    (hmore : elements read fuel false more = .ok (values, rest)) :
    elements read (fuel + 1) isFirst s = .ok (value :: values, rest) := by
  have hread : read (written layout ++ more) = .ok (value, more) :=
    h.undoes layout [] more isGap_nil
  rw [elements, hnext]
  change (read (written layout ++ more) >>= _) = _
  rw [hread]
  change (elements read fuel false more >>= _) = _
  rw [hmore]
  rfl

variable (write : α → Writer) (values : List α)
  (h : ∀ value ∈ values, Reads read value (write value))

include h

/-- The values after the first one are read back up to the closing bracket. -/
theorem elements_written (layout : Layout) (gap rest : List Char) (hgap : IsGap gap) (fuel : Nat)
    (hfuel : values.length < fuel) :
    elements read fuel false
        (Writer.following layout (values.map write) ++ (gap ++ ']' :: rest)) =
      .ok (values, rest) := by
  -- Each round spends one unit of fuel on one value.
  induction values generalizing fuel with
  | nil =>
      rcases Nat.exists_eq_succ_of_ne_zero (Nat.ne_of_gt hfuel) with ⟨fuel, rfl⟩
      exact elements_close read false fuel gap rest hgap
  | cons value values ih =>
      rcases Nat.exists_eq_succ_of_ne_zero (Nat.ne_of_gt (Nat.zero_lt_of_lt hfuel)) with
        ⟨fuel, rfl⟩
      have hvalue := h value List.mem_cons_self
      rw [List.map_cons, Writer.following_cons_append]
      exact elements_succ hvalue layout false fuel _ _ rest values
        (nextElement_following hvalue layout _ _ (isGap_lineBreak layout))
        (ih (fun next hnext => h next (List.mem_cons_of_mem _ hnext)) fuel
          (Nat.lt_of_succ_lt_succ hfuel))

/-- An array is read back if its elements are. -/
theorem reads_array : Reads (sequence read) values (Writer.array (values.map write)) := by
  cases values with
  | nil =>
      refine ⟨fun _ => ⟨'[', by decide, _, rfl⟩, fun layout gap rest hgap => ?_⟩
      change sequence read (gap ++ '[' :: ']' :: rest) = _
      rw [sequence, skipSpace_gap gap hgap '[' rfl]
      exact elements_close read true rest.length [] rest isGap_nil
  | cons value values =>
      refine ⟨fun _ => ⟨'[', by decide, _, rfl⟩, fun layout gap rest hgap => ?_⟩
      have hvalue := h value List.mem_cons_self
      rw [List.map_cons, Writer.array, Writer.bracketed_cons, sequence,
        skipSpace_gap gap hgap '[' rfl]
      rcases Writer.exists_fuel layout (write value) (values.map write) (hvalue.ne_nil _) ']' rest
        with ⟨fuel, hfuel, hlength⟩
      rw [List.length_map] at hfuel
      -- The first round reads no comma; the others are those of the lemma above.
      change elements read _ true _ = _
      rw [hlength]
      refine elements_succ hvalue layout.inner true fuel _ _ rest values
        (nextElement_first hvalue _ _ _ (isGap_lineBreak _)) ?_
      exact elements_written write values (fun next hnext => h next (List.mem_cons_of_mem _ hnext))
        layout.inner _ rest (isGap_lineBreak _) fuel hfuel

end Arrays

section Objects

theorem nextKey_first (key : String) (gap rest : List Char) (hgap : IsGap gap) :
    nextKey true (gap ++ (writeText key ++ rest)) = .ok (some key, rest) := by
  rw [writeText_append, nextKey, skipSpace_gap gap hgap '"' rfl]
  change (readText _ >>= _) = _
  rw [readText_written]
  rfl

theorem nextKey_following (key : String) (gap rest : List Char) (hgap : IsGap gap) :
    nextKey false (',' :: (gap ++ (writeText key ++ rest))) = .ok (some key, rest) := by
  have hskip := skipSpace_gap gap hgap '"' rfl (key.toList.flatMap escape ++ '"' :: rest)
  have hcomma : ∀ s, skipSpace (',' :: s) = ',' :: s := fun _ => rfl
  rw [writeText_append]
  simp only [nextKey, hcomma, Char.reduceEq, false_implies, hskip, readText_written,
    Bool.false_eq_true, if_false, if_true]
  rfl

variable {σ α : Type} {member : σ → String → Reader σ}

/-- Reading fields in turn, each after its key, leads from one draft to another. -/
inductive Gathers (member : σ → String → Reader σ) : σ → List (String × Writer) → σ → Prop
  | nil (draft : σ) : Gathers member draft [] draft
  | cons {draft next last : σ} {key : String} {written : Writer} {more : List (String × Writer)}
      (hfield : ∀ layout rest, member draft key
        (Layout.colon layout ++ (written layout ++ rest)) = .ok (next, rest))
      (hmore : Gathers member next more last) : Gathers member draft ((key, written) :: more) last

theorem Gathers.append {draft next last : σ} {fields more : List (String × Writer)}
    (h : Gathers member draft fields next) (hmore : Gathers member next more last) :
    Gathers member draft (fields ++ more) last := by
  induction h with
  | nil => exact hmore
  | cons hfield _ ih => exact .cons hfield (ih hmore)

theorem members_close (member : σ → String → Reader σ) (isFirst : Bool) (draft : σ) (fuel : Nat)
    (gap rest : List Char) (hgap : IsGap gap) :
    members member (fuel + 1) isFirst draft (gap ++ '\x7d' :: rest) = .ok (draft, rest) := by
  rw [members, nextKey, skipSpace_gap gap hgap '\x7d' rfl]
  rfl

/-- A round of reading takes back a field, if the next rounds take back the others. -/
theorem members_succ (key : String) (written : Writer) (layout : Layout) (isFirst : Bool)
    (fuel : Nat) (draft next last : σ) (s more rest : List Char)
    (hfield : ∀ rest, member draft key (layout.colon ++ (written layout ++ rest)) =
      .ok (next, rest))
    (hnext : nextKey isFirst s = .ok (some key, layout.colon ++ (written layout ++ more)))
    (hmore : members member fuel false next more = .ok (last, rest)) :
    members member (fuel + 1) isFirst draft s = .ok (last, rest) := by
  rw [members, hnext]
  change (member draft key (layout.colon ++ (written layout ++ more)) >>= _) = _
  rw [hfield]
  exact hmore

/-- The fields after the first one are read back up to the closing brace. -/
theorem members_written {draft last : σ} {fields : List (String × Writer)}
    (h : Gathers member draft fields last) (layout : Layout) (gap rest : List Char)
    (hgap : IsGap gap) (fuel : Nat) (hfuel : fields.length < fuel) :
    members member fuel false draft
        (Writer.following layout (fields.map fun field => Writer.member field.1 field.2) ++
          (gap ++ '\x7d' :: rest)) = .ok (last, rest) := by
  -- On the fields, whose drafts say what each round hands to the next.
  induction h generalizing fuel with
  | nil draft =>
      rcases Nat.exists_eq_succ_of_ne_zero (Nat.ne_of_gt hfuel) with ⟨fuel, rfl⟩
      exact members_close member false draft fuel gap rest hgap
  | @cons draft next last key written more hfield _ ih =>
      rcases Nat.exists_eq_succ_of_ne_zero (Nat.ne_of_gt (Nat.zero_lt_of_lt hfuel)) with
        ⟨fuel, rfl⟩
      rw [List.map_cons, Writer.following_cons_append, Writer.member_append]
      exact members_succ key written layout false fuel draft next last _ _ rest (hfield layout)
        (nextKey_following key _ _ (isGap_lineBreak layout))
        (ih fuel (Nat.lt_of_succ_lt_succ hfuel))

/-- A record is read back from an object if its fields lead to a draft that gives
    it. -/
theorem reads_record {name : String} {start last : σ} {finish : σ → Except Fault α}
    {ofArray : Reader α} {fields : List (String × Writer)} {value : α}
    (h : Gathers member start fields last) (hfinish : finish last = .ok value) :
    Reads (record name start member finish ofArray) value (Writer.object fields) := by
  -- What is between the braces is left to show, with or without fields.
  have hrecord : ∀ s rest gap, IsGap gap →
      members member s.length true start s = .ok (last, rest) →
      record name start member finish ofArray (gap ++ '\x7b' :: s) = .ok (value, rest) := by
    intro s rest gap hgap hmembers
    rw [record, skipSpace_gap gap hgap '\x7b' rfl]
    change (members member s.length true start s >>= _) = _
    rw [hmembers]
    change (finish last >>= _) = _
    rw [hfinish]
    rfl
  cases h with
  | nil =>
      refine ⟨fun _ => ⟨'\x7b', by decide, _, rfl⟩, fun layout gap rest hgap => ?_⟩
      exact hrecord ('\x7d' :: rest) rest gap hgap
        (members_close member true start rest.length [] rest isGap_nil)
  | @cons _ next _ key written more hfield hmore =>
      refine ⟨fun _ => ⟨'\x7b', by decide, _, rfl⟩, fun layout gap rest hgap => ?_⟩
      rw [Writer.object, List.map_cons, Writer.bracketed_cons]
      refine hrecord _ rest gap hgap ?_
      rcases Writer.exists_fuel layout (Writer.member key written)
        (more.map fun field => Writer.member field.1 field.2) (List.cons_ne_nil _ _) '\x7d' rest
        with ⟨fuel, hfuel, hlength⟩
      rw [List.length_map] at hfuel
      rw [hlength, Writer.member_append]
      exact members_succ key written layout.inner true fuel start next last _ _ rest
        (hfield layout.inner) (nextKey_first key _ _ (isGap_lineBreak _))
        (members_written hmore layout.inner _ rest (isGap_lineBreak _) fuel hfuel)

end Objects

end Json

open Json

theorem lookup_word_kind (kind : Kind) : Kind.choices.lookup kind.word = some kind := by
  cases kind <;> decide

theorem lookup_word_siteKind (kind : SiteKind) :
    SiteKind.choices.lookup kind.word = some kind := by
  cases kind <;> decide

theorem reads_texts (values : List String) : Reads (sequence text) values (Writer.texts values) :=
  reads_array Writer.text values fun value _ => reads_text value

theorem Site.reads_write (site : Site) : Reads Site.read site site.write := by
  -- One draft for each field that has been read, the last of which gives the site.
  have htarget := (reads_text site.target).field "target" fun value =>
    ({ target := some value } : Draft)
  have hargs := (reads_texts site.typeArgs).field "type_args" fun value =>
    ({ target := some site.target, typeArgs := some value } : Draft)
  have hkind := (reads_variant _ _ _ (lookup_word_siteKind site.kind)).field "kind" fun value =>
    ({ target := some site.target, typeArgs := some site.typeArgs, kind := some value } : Draft)
  exact reads_record (.cons htarget (.cons hargs (.cons hkind (.nil _)))) rfl

theorem Inheritance.reads_write (i : Inheritance) : Reads Inheritance.read i i.write := by
  have hderived := (reads_text i.derived).field "derived" fun value =>
    ({ derived := some value } : Draft)
  have hbase := (reads_text i.base).field "base" fun value =>
    ({ derived := some i.derived, base := some value } : Draft)
  have hargs := (reads_texts i.typeArgs).field "type_args" fun value =>
    ({ derived := some i.derived, base := some i.base, typeArgs := some value } : Draft)
  exact reads_record (.cons hderived (.cons hbase (.cons hargs (.nil _)))) rfl

theorem Declaration.reads_write (d : Declaration) : Reads Declaration.read d d.write := by
  rcases d with ⟨name, kind, typeParams, enclosing, special, body⟩
  have hname := (reads_text name).field "name" fun value => ({ name := some value } : Draft)
  have hkind := (reads_variant _ _ _ (lookup_word_kind kind)).field "kind" fun value =>
    ({ name := some name, kind := some value } : Draft)
  have hparams := (reads_texts typeParams).field "type_params" fun value =>
    ({ name := some name, kind := some kind, typeParams := some value } : Draft)
  -- A field that is left out and one that is given as nothing come to the same.
  have henclosing : Gathers Draft.member
      { name := some name, kind := some kind, typeParams := some typeParams }
      (enclosing.toList.map fun outer => ("enclosing", Writer.text outer))
      { name := some name, kind := some kind, typeParams := some typeParams
        enclosing := enclosing.map some } := by
    cases enclosing with
    | none => exact .nil _
    | some outer =>
        exact .cons ((reads_text outer).optional.field "enclosing" fun value =>
          ({ name := some name, kind := some kind, typeParams := some typeParams
             enclosing := some value } : Draft)) (.nil _)
  have hspecial := (reads_boolean special).field "requires_specialization" fun value =>
    ({ name := some name, kind := some kind, typeParams := some typeParams
       enclosing := enclosing.map some, requiresSpecialization := some value } : Draft)
  have hbody := (reads_array Site.write body fun site _ => site.reads_write).field "body"
    fun value =>
      ({ name := some name, kind := some kind, typeParams := some typeParams
         enclosing := enclosing.map some, requiresSpecialization := some special
         body := some value } : Draft)
  refine reads_record (((Gathers.cons hname (.cons hkind (.cons hparams (.nil _)))).append
    henclosing).append (.cons hspecial (.cons hbody (.nil _)))) ?_
  cases enclosing with
  | none => rfl
  | some outer => rfl

namespace Program

theorem reads_write (p : Program) : Reads Program.read p p.write := by
  have hdeclarations := (reads_array Declaration.write p.declarations fun d _ =>
    d.reads_write).field "declarations" fun value => ({ declarations := some value } : Draft)
  have hhierarchy := (reads_array Inheritance.write p.hierarchy fun i _ =>
    i.reads_write).field "hierarchy" fun value =>
      ({ declarations := some p.declarations, hierarchy := some value } : Draft)
  exact reads_record (.cons hdeclarations (.cons hhierarchy (.nil _))) rfl

/-- A document that was written is read back. -/
theorem read_render (p : Program) : document read p.render = .ok p := by
  have hread := p.reads_write.undoes (.pretty 0) [] [] isGap_nil
  rw [List.nil_append, List.append_nil] at hread
  rw [document, render, Writer.pretty, String.toList_ofList, hread]
  rfl

/-- Loading a document that was written is looking at the names in the program. -/
theorem load_eq_checkShape (p : Program) : load p.render = p.checkShape.mapError .shape := by
  rw [load, read_render]

/-- A program that passes is not changed by that. -/
theorem checkShape_eq_ok (p q : Program) (h : p.checkShape = .ok q) : q.checkShape = .ok q := by
  -- Looking at names returns what it was given.
  have hsame : p = q := by
    unfold checkShape at h
    cases hfault : p.shapeFault? with
    | none =>
        rw [hfault] at h
        exact Except.ok.inj h
    | some fault =>
        rw [hfault] at h
        exact absurd h (by simp only [reduceCtorEq, not_false_eq_true])
  rwa [hsame] at h

/-- Whatever is loaded has passed. -/
theorem checkShape_of_load (source : String) (p : Program) (h : load source = .ok p) :
    p.checkShape = .ok p := by
  unfold load at h
  cases hread : document read source with
  | error fault =>
      rw [hread] at h
      exact absurd h (by simp only [reduceCtorEq, not_false_eq_true])
  | ok q =>
      rw [hread] at h
      exact checkShape_eq_ok q p ((mapError_eq_ok_iff _ _ _).mp h)

/-- What is written for a program is loaded as that program if no name is missing in
    it, and otherwise refused with the fault that looking at its names gives. So a
    program that was loaded from any document is the same when it is written and loaded
    again. -/
theorem load_render (p : Program) :
    load p.render = p.checkShape.mapError .shape ∧
    (p.checkShape = .ok p → load p.render = .ok p) ∧
    (∀ fault, p.checkShape = .error fault →
      (load p.render).mapError Error.ofProgram = .error (.generic fault.message)) ∧
    ∀ source, load source = .ok p → load p.render = .ok p := by
  have hpasses : p.checkShape = .ok p → load p.render = .ok p := by
    intro hshape
    rw [load_eq_checkShape, hshape]
    rfl
  refine ⟨load_eq_checkShape p, hpasses, fun fault hshape => ?_, fun source hload =>
    hpasses (checkShape_of_load source p hload)⟩
  rw [load_eq_checkShape, hshape]
  rfl

end Program

end Monomorph
