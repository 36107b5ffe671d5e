import Rejoin.Proofs.Stored

/-!
# A record is read like its bookmark

A bookmark is read directly from the members of an object.  A record is read from an object that is buffered whole, of
which only the members with a bookmark's names are looked at again.  Some faults differ between the two, so readings
are compared without their faults, by `Except.toOption`.

* `Json.Uniform` — a reading that takes the same values directly and buffered;
* `Bookmark.ofMembers_filter` — members with other names make no difference, if they are readable;
* `Record.decode_eq_ok_iff` — which values are read as a record, and as which;
* `record_read_like_bookmark` — a text is read as a record exactly if it is read as a bookmark.
-/

namespace Rejoin

namespace Json

variable {α β σ : Type}

/-! ### Readings without their faults -/

theorem toOption_eq_some {x : Except Fault α} {a : α} : x.toOption = some a ↔ x = .ok a := by
  cases x <;> simp [Except.toOption]

theorem toOption_map (f : α → β) (x : Except Fault α) : (x.map f).toOption = x.toOption.map f := by
  cases x <;> rfl

theorem toOption_bind_congr {x y : Except Fault α} {f g : α → Except Fault β} (hx : x.toOption = y.toOption)
    (hf : ∀ a, (f a).toOption = (g a).toOption) : (x >>= f).toOption = (y >>= g).toOption := by
  cases x with
  | error e =>
    cases y with
    | error e' => rfl
    | ok b => exact nomatch hx
  | ok a =>
    obtain rfl : y = .ok a := toOption_eq_some.mp hx.symm
    exact hf a

theorem toOption_foldlM_congr {f g : σ → α → Except Fault σ} {as : List α}
    (h : ∀ a ∈ as, ∀ s, (f s a).toOption = (g s a).toOption) (s : σ) :
    (as.foldlM f s).toOption = (as.foldlM g s).toOption := by
  induction as generalizing s with
  | nil => rfl
  | cons a as ih =>
    rw [List.foldlM_cons, List.foldlM_cons]
    exact toOption_bind_congr (h a List.mem_cons_self s) (ih fun b hb => h b (List.mem_cons_of_mem a hb))

/-! ### Directly and buffered -/

/-- The same values are read directly and buffered, and as the same. -/
def Uniform (read : Decoder α) : Prop :=
  ∀ mode j, (read mode j).toOption = (read .direct j).toOption

theorem uniform_asString : Uniform asString := fun _ j => by cases j <;> rfl

theorem uniform_asString? : Uniform asString? := fun _ j => by cases j <;> rfl

theorem uniform_asWord : Uniform asWord := fun _ j => by cases j <;> rfl

theorem Uniform.fill_bind {read : Decoder α} (h : Uniform read) (mode : Mode) (name : String) (old : Option α)
    (j : Json) (next : Option α → Except Fault β) :
    (fill name old (read mode j) >>= next).toOption = (fill name old (read .direct j) >>= next).toOption := by
  refine toOption_bind_congr ?_ fun _ => rfl
  cases old with
  | none => rw [fill, fill, toOption_map, toOption_map, h mode j]
  | some a => rfl

theorem Uniform.element {read : Decoder α} (h : Uniform read) (mode : Mode) (name : String) (count : Nat)
    (xs : List Json) (i : Nat) :
    (element name count xs i (read mode)).toOption = (Json.element name count xs i (read .direct)).toOption := by
  unfold Json.element
  split
  · exact h mode _
  · rfl

theorem toOption_noMore (mode : Mode) (count : Nat) (xs : List Json) :
    (noMore mode count xs).toOption = (noMore .direct count xs).toOption := by
  unfold noMore
  split
  · rfl
  · cases mode <;> rfl

theorem readable_of_mem {ms : List (String × Json)} (h : readable (.object ms) = true) {m : String × Json}
    (hm : m ∈ ms) : readable m.2 = true := by
  induction ms with
  | nil => exact nomatch hm
  | cons m' ms ih =>
    simp only [readable, readableMembers, Bool.and_eq_true] at h ih
    rcases List.mem_cons.mp hm with rfl | hm
    · exact h.1
    · exact ih h.2 hm

theorem skip_of_readable {j : Json} (h : readable j = true) (s : σ) : skip s j = .ok s := by
  cases j with
  | flawed name => exact nomatch h
  | _ => rfl

end Json

open Json (Mode)

namespace Ticket

theorem Fields.toOption_read (mode : Mode) (s : Fields) (m : String × Json) :
    (Fields.read mode s m).toOption = (Fields.read .direct s m).toOption := by
  unfold Fields.read
  split
  · exact Json.uniform_asString.fill_bind mode _ _ _ _
  · exact Json.uniform_asString.fill_bind mode _ _ _ _
  · exact Json.uniform_asString?.fill_bind mode _ _ _ _
  · rfl

/-- A ticket is read alike from its members and from an array, whose last element may be left out. -/
theorem uniform_decode : Json.Uniform decode := by
  intro mode j
  cases j with
  | object ms =>
    exact Json.toOption_bind_congr (Json.toOption_foldlM_congr (fun m _ s => Fields.toOption_read mode s m) {})
      fun _ => rfl
  | array xs =>
    refine Json.toOption_bind_congr (Json.uniform_asString.element mode _ _ xs 0) fun run => ?_
    refine Json.toOption_bind_congr (Json.uniform_asString.element mode _ _ xs 1) fun step => ?_
    have hend (token : Option String) := Json.toOption_bind_congr (Json.toOption_noMore mode 3 xs)
      fun _ => (rfl : (pure (⟨run, step, token⟩ : Ticket) : Except Json.Fault Ticket).toOption = _)
    cases xs[2]? with
    | none => exact hend none
    | some x => exact Json.toOption_bind_congr (Json.uniform_asString? mode x) hend
  | _ => rfl

end Ticket

namespace Bookmark

theorem Fields.toOption_step (mode : Mode) (s : Fields) (m : String × Json) :
    (Fields.step mode s m).toOption = (Fields.step .direct s m).toOption := by
  unfold Fields.step
  split
  · exact Ticket.uniform_decode.fill_bind mode _ _ _ _
  · exact Json.uniform_asString.fill_bind mode _ _ _ _
  · exact Json.uniform_asString.fill_bind mode _ _ _ _
  · exact Json.uniform_asWord.fill_bind mode _ _ _ _
  · rfl

theorem toOption_ofMembers (mode : Mode) (ms : List (String × Json)) :
    (ofMembers mode ms).toOption = (ofMembers .direct ms).toOption :=
  Json.toOption_bind_congr (Json.toOption_foldlM_congr (fun m _ s => Fields.toOption_step mode s m) {}) fun _ => rfl

theorem Fields.step_of_notMem {m : String × Json} (h : m.1 ∉ Record.fieldNames) (mode : Mode) (s : Fields) :
    Fields.step mode s m = Json.skip s m.2 := by
  simp only [Record.fieldNames, List.mem_cons, List.not_mem_nil, or_false, not_or] at h
  obtain ⟨hticket, hnode, hpath, hdepth⟩ := h
  unfold Fields.step
  split <;> first | contradiction | rfl

/-- Members with other names make no difference, wherever they stand and however often, if they are readable. -/
theorem ofMembers_filter {ms : List (String × Json)} (h : Json.readable (.object ms) = true) (mode : Mode) :
    (ofMembers mode (ms.filter (·.1 ∈ Record.fieldNames))).toOption = (ofMembers mode ms).toOption := by
  unfold ofMembers
  refine Json.toOption_bind_congr ?_ fun _ => rfl
  rw [List.foldlM_filter]
  refine Json.toOption_foldlM_congr (fun m hm s => ?_) _
  split
  · rfl
  · next hn =>
    have hn : m.1 ∉ Record.fieldNames := by simpa only [decide_eq_true_eq] using hn
    rw [Fields.step_of_notMem hn, Json.skip_of_readable (Json.readable_of_mem h hm)]
    rfl

end Bookmark

namespace Record

theorem eq_ofBookmark_iff {r : Record} {b : Bookmark} : ofBookmark b = r ↔ b = r.bookmark ∧ r.holdings = none := by
  obtain ⟨b', holdings⟩ := r
  simp [ofBookmark, eq_comm]

/-- What is read as a record: an object that can be buffered and that is read as a bookmark. -/
theorem decode_eq_ok_iff {mode : Mode} {ms : List (String × Json)} {r : Record} :
    decode mode (.object ms) = .ok r ↔
      Json.sound (.object ms) = true ∧ Bookmark.decode .direct (.object ms) = .ok r.bookmark ∧ r.holdings = none := by
  rw [decode]
  split
  · next hs =>
    have hread : Json.readable (.object ms) = true := by
      rw [Json.sound, Bool.and_eq_true] at hs
      exact hs.1
    have hb : (Bookmark.ofMembers .buffered (ms.filter (·.1 ∈ fieldNames))).toOption
        = (Bookmark.decode .direct (.object ms)).toOption :=
      (Bookmark.ofMembers_filter hread .buffered).trans (Bookmark.toOption_ofMembers .buffered ms)
    rw [← Json.toOption_eq_some, Json.toOption_map, hb, Option.map_eq_some_iff]
    simp only [Json.toOption_eq_some, eq_ofBookmark_iff, hs, true_and]
    constructor
    · rintro ⟨_, hb, rfl, hn⟩
      exact ⟨hb, hn⟩
    · rintro ⟨hb, hn⟩
      exact ⟨r.bookmark, hb, rfl, hn⟩
  · next hs => simp [hs]

end Record

/-- **A record is read like its bookmark.**  From the text of an object that can be buffered a record is read exactly
if a bookmark is, and it is then the record of that bookmark, which holds nothing.  The order of the fields, unknown
fields and whatever is wrong with a field make no difference between the two.  And a record is written as its
bookmark is. -/
theorem record_read_like_bookmark {s : String} {ms : List (String × Json)}
    (hread : Json.read? s.toList = some (.object ms)) (hsound : Json.sound (.object ms) = true) :
    (∀ r, Json.decode Record.decode s = .ok r ↔
        Json.decode Bookmark.decode s = .ok r.bookmark ∧ r.holdings = none) ∧
      ((∃ r, Json.decode Record.decode s = .ok r) ↔ ∃ b, Json.decode Bookmark.decode s = .ok b) ∧
      ∀ r : Record, r.json.text = r.bookmark.json.text := by
  have hiff (r : Record) : Json.decode Record.decode s = .ok r ↔
      Json.decode Bookmark.decode s = .ok r.bookmark ∧ r.holdings = none := by
    simp only [Json.decode, hread, Record.decode_eq_ok_iff, hsound, true_and]
  refine ⟨hiff, ⟨?_, ?_⟩, fun r => rfl⟩
  · rintro ⟨r, hr⟩
    exact ⟨r.bookmark, ((hiff r).mp hr).1⟩
  · rintro ⟨b, hb⟩
    exact ⟨.ofBookmark b, (hiff _).mpr ⟨hb, rfl⟩⟩

/-- Fields out of order, unknown ones among them and twice, and a ticket as an array without its token. -/
theorem record_read_like_bookmark_reordered :
    let j : Json := .object [("x", .null), ("depth", .nat 3), ("task", .array [.string "r", .string "s"]),
      ("x", .array [.bool true, .object []]), ("path", .string "/w"), ("node", .string "")]
    j.text = "\x7b\"x\":null,\"depth\":3,\"task\":[\"r\",\"s\"],\"x\":[true,\x7b\x7d],\"path\":\"/w\","
        ++ "\"node\":\"\"\x7d" ∧
      Json.read? j.text.toList = some j ∧ Json.sound j = true ∧
      Json.decode Record.decode j.text = .ok (.ofBookmark ⟨⟨"r", "s", none⟩, "", "/w", 3⟩) := by
  intro j
  have hticket : Json.Plain (.array [.string "r", .string "s"]) := .array (by simp [Json.Plain.string])
  have hunknown : Json.Plain (.array [.bool true, .object []]) := .array (by simp [Json.Plain.bool, Json.Plain.empty])
  have hj : Json.Plain j :=
    .member .null (.member (Json.plain_nat (by decide)) (.member hticket (.member hunknown
      (.member (.string _) (.member (.string _) .empty)))))
  have hread : Json.read? j.text.toList = some j := by rw [Json.text, String.toList_ofList, hj.read?_chars]
  have hsound : Json.sound j = true := by rfl
  refine ⟨by decide, hread, hsound, ((record_read_like_bookmark hread hsound).1 _).mpr ⟨?_, rfl⟩⟩
  rw [hj.decode_text]
  rfl

end Rejoin
