import Rejoin.Interruption
import Rejoin.Proofs.Json.Reading
import Rejoin.Record

/-!
# What is stored is read back

Records, bookmarks, tickets and interruptions are stored as texts.

* `Json.ReadsBack` — what a value is read back as from its text, and that it then has the same text;
* `Json.Plain.decode_text` — a reading of a text is a reading of the value that was written;
* `stored_reads_back` — everything that is stored is read back, but a record without what the step held.
-/

namespace Rejoin

namespace Json

/-- A value is read back as another one that is written the same. -/
def ReadsBack {α : Type} (read : Decoder α) (json : α → Json) (a a' : α) : Prop :=
  decode read (json a).text = .ok a' ∧ (json a').text = (json a).text

theorem Plain.decode_text {α : Type} {j : Json} (h : Plain j) (read : Decoder α) :
    decode read j.text = read .direct j := by
  rw [decode, text, String.toList_ofList, h.read?_chars]

theorem Plain.readsBack {α : Type} (read : Decoder α) (json : α → Json) {a a' : α} (h : Plain (json a))
    (hread : read .direct (json a) = .ok a') (hjson : json a' = json a) : ReadsBack read json a a' :=
  ⟨(h.decode_text read).trans hread, congrArg text hjson⟩

theorem Plain.empty : Plain (.object []) := .object fun _ h => nomatch h

theorem Plain.member {k : String} {v : Json} {ms : List (String × Json)} (hv : Plain v) (h : Plain (.object ms)) :
    Plain (.object ((k, v) :: ms)) := by
  cases h with
  | object h => exact .object (List.forall_mem_cons.mpr ⟨hv, h⟩)

theorem plain_string? (s : Option String) : Plain (.string? s) := by
  cases s with
  | none => exact .null
  | some s => exact .string s

theorem plain_nat {n : Nat} (h : n < 2 ^ 64) : Plain (.nat n) := .integer ⟨by omega, by omega⟩

theorem asWord_nat {n : Nat} (h : n < 2 ^ 32) (mode : Mode) : asWord mode (.nat n) = .ok n := by
  have hn : 0 ≤ (n : Int) ∧ n < Nat.pow 2 32 := ⟨Int.natCast_nonneg n, h⟩
  simp only [asWord, nat, Numeral.magnitude?, Int.toNat_natCast, if_pos hn]

theorem asList_map {α : Type} {read : Decoder α} {json : α → Json} {mode : Mode}
    (h : ∀ a, read mode (json a) = .ok a) (as : List α) : asList read mode (.array (as.map json)) = .ok as := by
  rw [asList]
  induction as with
  | nil => rfl
  | cons a as ih =>
    rw [List.map_cons, List.mapM_cons, h, ih]
    rfl

end Json

open Json (Plain Mode ReadsBack)

namespace Ticket

theorem plain_json (t : Ticket) : Plain t.json :=
  .member (.string t.run) (.member (.string t.step) (.member (Json.plain_string? t.token) .empty))

theorem decode_json (mode : Mode) (t : Ticket) : decode mode t.json = .ok t := by
  obtain ⟨run, step, _ | token⟩ := t <;> rfl

end Ticket

namespace Bookmark

theorem plain_json {b : Bookmark} (h : b.depth < 2 ^ 32) : Plain b.json :=
  .member b.ticket.plain_json (.member (.string b.node) (.member (.string b.path)
    (.member (Json.plain_nat (by omega)) .empty)))

theorem decode_json {b : Bookmark} (h : b.depth < 2 ^ 32) (mode : Mode) : decode mode b.json = .ok b := by
  simp only [decode, json, ofMembers, List.foldlM_cons, List.foldlM_nil, Fields.step, Ticket.decode_json,
    Json.asWord_nat h]
  rfl

end Bookmark

namespace Record

theorem sound_json (r : Record) : Json.sound r.json = true := by
  obtain ⟨⟨⟨run, step, _ | token⟩, node, path, depth⟩, holdings⟩ := r <;> rfl

theorem decode_json {r : Record} (h : r.bookmark.depth < 2 ^ 32) (mode : Mode) :
    decode mode r.json = .ok (ofBookmark r.bookmark) := by
  have hs := sound_json r
  have hb := Bookmark.decode_json h .buffered
  rw [json, Bookmark.json] at hs ⊢
  rw [decode, if_pos hs]
  -- No member of a bookmark is left out when it is read from what was buffered.
  exact congrArg (Except.map ofBookmark) hb

end Record

theorem Cause.plain_json (c : Cause) : Plain c.json := .member (.string c.code) (.member (.string c.description) .empty)

theorem Cause.decode_json (mode : Mode) (c : Cause) : Cause.decode mode c.json = .ok c := rfl

theorem Verdict.decode_json (mode : Mode) (v : Verdict) : Verdict.decode mode v.json = .ok v := Verdict.ofKey_key v

namespace Interruption

theorem plain_json (i : Interruption) : Plain i.json := by
  refine .member (.string i.verdict.key) (.member (.bool i.actual) (.member (.array fun j hj => ?_) .empty))
  obtain ⟨c, -, rfl⟩ := List.mem_map.mp hj
  exact c.plain_json

theorem decode_json (mode : Mode) (i : Interruption) : decode mode i.json = .ok i := by
  simp only [decode, json, List.foldlM_cons, List.foldlM_nil, Fields.step, Verdict.decode_json,
    Json.asList_map (Cause.decode_json mode)]
  rfl

end Interruption

/-- **What is stored is read back.**  Every text is written so that what is read from it is what was stored, whatever
characters it has: a ticket with or without a token, a bookmark, an interruption with all of its causes.  A record is
read back as the record of its bookmark alone, without what the step held.  And whatever was read back is written as the
same text again.  Depths are words of 32 bits. -/
theorem stored_reads_back :
    (∀ t : Ticket, ReadsBack Ticket.decode Ticket.json t t) ∧
      (∀ b : Bookmark, b.depth < 2 ^ 32 → ReadsBack Bookmark.decode Bookmark.json b b) ∧
      (∀ r : Record, r.bookmark.depth < 2 ^ 32 →
        ∃ r', ReadsBack Record.decode Record.json r r' ∧ r'.holdings = none ∧ r'.bookmark = r.bookmark) ∧
      ∀ i : Interruption, ReadsBack Interruption.decode Interruption.json i i := by
  refine ⟨?_, ?_, ?_, ?_⟩
  · intro t
    exact Plain.readsBack Ticket.decode Ticket.json t.plain_json (t.decode_json .direct) rfl
  · intro b h
    exact Plain.readsBack Bookmark.decode Bookmark.json (Bookmark.plain_json h) (Bookmark.decode_json h .direct) rfl
  · intro r h
    refine ⟨.ofBookmark r.bookmark, ?_, rfl, rfl⟩
    exact Plain.readsBack Record.decode Record.json (Bookmark.plain_json h) (Record.decode_json h .direct) rfl
  · intro i
    exact Plain.readsBack Interruption.decode Interruption.json i.plain_json (i.decode_json .direct) rfl

/-- The record of a step that runs, with quotes, a backslash and a control character, and without a token. -/
theorem stored_reads_back_running :
    let r : Record := .ofHoldings ⟨"a\"b\\", "\x01é\n", none⟩ ⟨⟨⟨1, "left"⟩, 0⟩, ⟨7, ⟨"left", "/w", 2⟩⟩⟩ 4294967295
    r.json.text = "\x7b\"task\":\x7b\"run_id\":\"a\\\"b\\\\\",\"step_id\":\"\\u0001é\\n\",\"cookie\":null\x7d,"
        ++ "\"node\":\"left\",\"path\":\"/w\",\"depth\":4294967295\x7d" ∧
      r.bookmark.depth < 2 ^ 32 ∧ ∃ r', ReadsBack Record.decode Record.json r r' ∧ r'.holdings = none := by
  intro r
  have hdepth : r.bookmark.depth < 2 ^ 32 := by decide
  obtain ⟨r', hr, hn, -⟩ := stored_reads_back.2.2.1 r hdepth
  exact ⟨by decide, hdepth, r', hr, hn⟩

end Rejoin
