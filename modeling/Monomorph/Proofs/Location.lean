import Monomorph.Proofs.Lookahead

/-!
# Where Parsing Stops

A text that is no type argument is refused at the first character that leaves no
hope: what stands before it could still be continued to a sentence, and with it
nothing can. If there is no such character, the text ends too early.

A place in a text is what is left there, and its offset counts the bytes before it.
The parser only says what is left, so the offset is a difference of two lengths,
which is the length of what was read because nothing is skipped.

## Theorems

* `Stop.error_eq_unexpectedChar_iff`, `Stop.error_eq_unexpectedEnd_iff`,
  `Stop.error_ne_empty`: Which stop an error reports.
* `Scope.readWhole_of_error`, `Scope.readWhole_of_trailing`, `Scope.readWhole_of_end`:
  How a whole text is read, by how its expression is.
* `Scope.readWhole_unexpected`: Where reading a whole text stops.
* `Scope.readWhole_ne_unexpected`: It does not stop within a sentence.
* `Scope.not_sentence_of_unexpected`: What begins like that is no sentence.
* `Scope.parse_eq_empty_iff`: Which texts count as empty.
* `Scope.readWhole_of_parse_eq_error`: Any other error comes from reading.
* `Scope.parse_unexpectedChar`, `Scope.parse_unexpectedEnd`: What the two errors say
  about a text.
* `Scope.parse_error_located`: Where an error is located, and what that says.
* `Shelf.parse_stops`: An error behind characters of several bytes, and an early end.
-/

namespace Monomorph

namespace Stop

theorem error_eq_unexpectedChar_iff (stop : Stop) (chars : List Char) (limit : Nat) (found : Char)
    (offset : Nat) :
    stop.error chars limit = .unexpectedChar found offset ↔ ∃ rest,
      stop = .unexpected (found :: rest) ∧
        offset = Text.utf8Length chars - Text.utf8Length (found :: rest) := by
  cases stop with
  | unexpected rest =>
      cases rest with
      | nil => simp [Stop.error]
      | cons c rest =>
          simp only [Stop.error, ParseError.unexpectedChar.injEq, Stop.unexpected.injEq,
            List.cons.injEq]
          constructor
          · rintro ⟨rfl, rfl⟩
            exact ⟨rest, ⟨rfl, rfl⟩, rfl⟩
          · rintro ⟨rest', ⟨rfl, rfl⟩, rfl⟩
            exact ⟨rfl, rfl⟩
  | _ => simp [Stop.error]

theorem error_eq_unexpectedEnd_iff (stop : Stop) (chars : List Char) (limit : Nat) :
    stop.error chars limit = .unexpectedEnd ↔ stop = .unexpected [] := by
  cases stop with
  | unexpected rest => cases rest <;> simp [Stop.error]
  | _ => simp [Stop.error]

theorem error_ne_empty (stop : Stop) (chars : List Char) (limit : Nat) :
    stop.error chars limit ≠ .empty := by
  cases stop with
  | unexpected rest => cases rest <;> simp [Stop.error]
  | _ => simp [Stop.error]

end Stop

namespace Scope

variable {scope : Scope} {chars rest : List Char} {e : Expr}

@[simp]
theorem readWhole_of_error {stop : Stop}
    (h : scope.readExpr scope.maxNesting chars = .error stop) :
    scope.readWhole chars = .error stop := by
  rw [readWhole, h]
  rfl

theorem readWhole_of_trailing (h : scope.readExpr scope.maxNesting chars = .ok (e, rest))
    (hrest : Text.skipBlanks rest ≠ []) :
    scope.readWhole chars = .error (.unexpected (Text.skipBlanks rest)) := by
  rw [readWhole, h]
  simp only [bind, Except.bind]

theorem readWhole_of_end (h : scope.readExpr scope.maxNesting chars = .ok (e, rest))
    (hrest : Text.skipBlanks rest = []) : scope.readWhole chars = .ok e := by
  rw [readWhole, h]
  simp only [bind, Except.bind, hrest]

/-- Where a text is stopped at, it could have gone on to a sentence, and every text
    that goes on with the same character is stopped there too. -/
theorem readWhole_unexpected (scope : Scope) (chars rest : List Char)
    (h : scope.readWhole chars = .error (.unexpected rest)) :
    ∃ read more, chars = read ++ rest ∧ Sentence (read ++ more) ∧
      ∀ rest', rest'.head? = rest.head? →
        scope.readWhole (read ++ rest') = .error (.unexpected rest') := by
  have hahead := scope.readExpr_oneAhead scope.maxNesting
  cases hread : scope.readExpr scope.maxNesting chars with
  | error stop =>
      -- The expression itself stops, and can be completed from there.
      rw [readWhole_of_error hread, Except.error.injEq] at h
      rw [h] at hread
      rcases hahead.unexpected chars rest hread with
        ⟨read, more, tokens, hchars, hphrase, hspells, hagain⟩
      exact ⟨read, more, hchars, hspells.sentence hphrase,
        fun rest' hhead => readWhole_of_error (hagain rest' hhead)⟩
  | ok pair =>
      rcases pair with ⟨e, mid⟩
      by_cases hmid : Text.skipBlanks mid = []
      · rw [readWhole_of_end hread hmid] at h
        exact absurd h (by simp only [reduceCtorEq, not_false_eq_true])
      · -- What was read is a sentence already.
        rw [readWhole_of_trailing hread hmid, Except.error.injEq, Stop.unexpected.injEq] at h
        rcases hahead.ok_skipBlanks hread with
          ⟨read, blanks, tokens, hchars, hphrase, hspells, hblanks, hagain⟩
        rw [h] at hchars hagain hmid
        refine ⟨read ++ blanks, [], by rw [hchars, List.append_assoc], ?_, fun rest' hhead => ?_⟩
        · rw [List.append_nil]
          exact (hspells.append_blanks blanks hblanks).sentence hphrase
        · rcases hagain rest' hhead with ⟨hread', hskip'⟩
          -- What trails has a first character, so any other text with it trails as well.
          have hne : rest' ≠ [] := by
            rintro rfl
            exact hmid (List.head?_eq_none_iff.mp hhead.symm)
          rw [List.append_assoc, readWhole_of_trailing hread' (by rwa [hskip']), hskip']

/-- A sentence is read to its end, or refused for what its names mean. -/
theorem readWhole_ne_unexpected (scope : Scope) (chars : List Char) (h : Sentence chars)
    (rest : List Char) : scope.readWhole chars ≠ .error (.unexpected rest) := by
  rcases h with ⟨tokens, hlex, hphrase⟩
  rw [← List.append_nil tokens] at hlex
  have hpasses := scope.readExpr_passes scope.maxNesting tokens [] chars hphrase hlex
    (by simp only [List.head?_nil, ne_eq, reduceCtorEq, not_false_eq_true])
  generalize hread : scope.readExpr scope.maxNesting chars = outcome at hpasses
  cases hpasses with
  | ok e mid hmid =>
      -- No token is left, so nothing but blanks can be.
      rw [readWhole_of_end hread (Lexes.skipBlanks_of_nil mid hmid)]
      simp only [ne_eq, reduceCtorEq, not_false_eq_true]
  | refused stop hstop =>
      rw [readWhole_of_error hread, ne_eq, Except.error.injEq]
      exact hstop rest

/-- Nothing that begins like a text up to where it was stopped at is a sentence. -/
theorem not_sentence_of_unexpected (scope : Scope) (chars rest : List Char)
    (h : scope.readWhole chars = .error (.unexpected rest)) :
    ∃ read more, chars = read ++ rest ∧ Sentence (read ++ more) ∧
      ∀ rest', rest'.head? = rest.head? → ¬ Sentence (read ++ rest') := by
  rcases scope.readWhole_unexpected chars rest h with ⟨read, more, hchars, hsentence, hagain⟩
  exact ⟨read, more, hchars, hsentence, fun rest' hhead hrest' =>
    scope.readWhole_ne_unexpected _ hrest' rest' (hagain rest' hhead)⟩

/-- Blank texts are told apart before anything is read. -/
theorem parse_eq_empty_iff (scope : Scope) (text : String) :
    scope.parse text = .error .empty ↔ ∀ c ∈ text.toList, Text.isBlank c = true := by
  rw [← List.all_eq_true, ← Text.isBlankText]
  unfold parse
  by_cases hblank : Text.isBlankText text = true
  · rw [if_pos hblank]
    exact iff_of_true rfl hblank
  · rw [if_neg hblank, mapError_eq_error_iff]
    refine iff_of_false ?_ hblank
    rintro ⟨stop, _, hstop⟩
    exact stop.error_ne_empty _ _ hstop

theorem readWhole_of_parse_eq_error (scope : Scope) (text : String) (error : ParseError)
    (herror : error ≠ .empty) (h : scope.parse text = .error error) :
    ∃ stop, scope.readWhole text.toList = .error stop ∧
      stop.error text.toList scope.maxNesting = error := by
  unfold parse at h
  by_cases hblank : Text.isBlankText text = true
  · rw [if_pos hblank, Except.error.injEq] at h
    exact absurd h.symm herror
  · rwa [if_neg hblank, mapError_eq_error_iff] at h

theorem parse_unexpectedChar (scope : Scope) (text : String) (found : Char) (offset : Nat)
    (h : scope.parse text = .error (.unexpectedChar found offset)) :
    ∃ before after : String, text = before.push found ++ after ∧ before.utf8ByteSize = offset ∧
      (∃ s, Sentence s ∧ before.toList <+: s) ∧
      ¬ ∃ s, Sentence s ∧ (before.push found).toList <+: s := by
  rcases scope.readWhole_of_parse_eq_error text _
    (by simp only [ne_eq, reduceCtorEq, not_false_eq_true]) h with ⟨stop, hstop, herror⟩
  rcases (stop.error_eq_unexpectedChar_iff _ _ _ _).mp herror with ⟨rest, rfl, hoffset⟩
  rcases scope.not_sentence_of_unexpected _ _ hstop with ⟨read, more, htext, hsentence, hnone⟩
  refine ⟨String.ofList read, String.ofList rest, ?_, ?_, ?_, ?_⟩
  · rw [← String.toList_inj, htext]
    simp only [String.toList_append, String.toList_push, String.toList_ofList, List.append_assoc,
      List.cons_append, List.nil_append]
  · -- All that was read is before the place, so the lengths differ by what was read.
    rw [Text.utf8ByteSize_ofList, hoffset, htext, Text.utf8Length_append, Nat.add_sub_cancel]
  · refine ⟨read ++ more, hsentence, ?_⟩
    rw [String.toList_ofList]
    exact List.prefix_append read more
  · rintro ⟨s, hs, later, hlater⟩
    rw [String.toList_push, String.toList_ofList, List.append_assoc,
      List.singleton_append] at hlater
    exact hnone (found :: later) rfl (hlater ▸ hs)

theorem parse_unexpectedEnd (scope : Scope) (text : String)
    (h : scope.parse text = .error .unexpectedEnd) :
    (∃ s, Sentence s ∧ text.toList <+: s ∧ text.toList ≠ s) ∧ ¬ Sentence text.toList := by
  rcases scope.readWhole_of_parse_eq_error text _
    (by simp only [ne_eq, reduceCtorEq, not_false_eq_true]) h with ⟨stop, hstop, herror⟩
  rw [(stop.error_eq_unexpectedEnd_iff _ _).mp herror] at hstop
  rcases scope.not_sentence_of_unexpected _ _ hstop with ⟨read, more, htext, hsentence, hnone⟩
  -- At the end there is no next character, and the text alone is no sentence.
  have hnot : ¬ Sentence text.toList := htext ▸ hnone [] rfl
  rw [List.append_nil] at htext
  refine ⟨⟨read ++ more, hsentence, ?_, fun heq => hnot (heq ▸ hsentence)⟩, hnot⟩
  rw [htext]
  exact List.prefix_append read more

/-- A parse error is where the text becomes hopeless. An unexpected character stands
    at the offset, in bytes; what stands before it begins some sentence, and with it
    no sentence begins. An unexpected end comes where the whole text begins a longer
    sentence and is none itself. A text counts as empty exactly when all of it is
    blank. -/
theorem parse_error_located (t : Table) (owner : Entry) (limit : Option Nat) (text : String) :
    (∀ found offset,
      (ofOwner t owner limit).parse text = .error (.unexpectedChar found offset) →
        ∃ before after : String, text = before.push found ++ after ∧
          before.utf8ByteSize = offset ∧
          (∃ s, Sentence s ∧ before.toList <+: s) ∧
          ¬ ∃ s, Sentence s ∧ (before.push found).toList <+: s) ∧
    ((ofOwner t owner limit).parse text = .error .unexpectedEnd →
      (∃ s, Sentence s ∧ text.toList <+: s ∧ text.toList ≠ s) ∧ ¬ Sentence text.toList) ∧
    ((ofOwner t owner limit).parse text = .error .empty ↔
      ∀ c ∈ text.toList, Text.isBlank c = true) :=
  ⟨parse_unexpectedChar _ text, parse_unexpectedEnd _ text, parse_eq_empty_iff _ text⟩

end Scope

namespace Shelf

/-- Blanks and letters of several bytes stand before a character that no sentence can
    have there, so its offset is not its position; and a text that ends early. -/
theorem parse_stops :
    (Scope.ofOwner table copy none).parse "Box<é\u2003ß>" = .error (.unexpectedChar 'ß' 9) ∧
    (∃ before after : String, "Box<é\u2003ß>" = before.push 'ß' ++ after ∧
      before.utf8ByteSize = 9 ∧ (∃ s, Sentence s ∧ before.toList <+: s) ∧
      ¬ ∃ s, Sentence s ∧ (before.push 'ß').toList <+: s) ∧
    (Scope.ofOwner table copy (some 3)).parse "Map<T, Box<" = .error .unexpectedEnd ∧
    ¬ Sentence "Map<T, Box<".toList := by
  have hchar : (Scope.ofOwner table copy none).parse "Box<é\u2003ß>" =
      .error (.unexpectedChar 'ß' 9) := by decide +kernel
  have hend : (Scope.ofOwner table copy (some 3)).parse "Map<T, Box<" = .error .unexpectedEnd := by
    decide +kernel
  exact ⟨hchar, (Scope.parse_error_located table copy none _).1 'ß' 9 hchar, hend,
    ((Scope.parse_error_located table copy (some 3) _).2.1 hend).2⟩

end Shelf

end Monomorph
