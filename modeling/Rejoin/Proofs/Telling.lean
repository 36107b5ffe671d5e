import Mathlib.Tactic.SplitIfs
import Rejoin.Text.Numeral
import Rejoin.Time.Span

/-!
# What is told of a span, read back

* `Span.read?` — the milliseconds that a text tells: numbers, each with its unit; `Span.read?_text` — they are the
  amount that is told;
* `Span.Shown.Usual` — what can be told at all, and `Span.ToldOf` — what is told of so many milliseconds;
  `Span.shown_ofMillis_amount` — of the amount that is told the same is told again;
* `Span.grain`, `Span.rounded` — the smallest step that is told of so many milliseconds, and these rounded down to it;
  `Span.rounded_mono` — more of them make no less;
* `Span.ToldOf.amount_eq` — the amount that is told is the span, rounded down;
* `Span.text_read_back` — what can be read from the text of a span.
-/

namespace Rejoin.Span

/-! ### Reading -/

def count? (w : List Char) : Option Nat :=
  if w ≠ [] ∧ w.all Char.isDigit then some (Text.digitsValue w) else none

/-- The tenths of a number that is written with one digit behind a point, or without. -/
def tenths? (w : List Char) : Option Nat :=
  match w.splitOn '.' with
  | [n] => (count? n).map (10 * ·)
  | [n, [d]] => do pure (10 * (← count? n) + (← count? [d]))
  | _ => none

def unit? (w : List Char) : Option Nat :=
  if w = "day".toList ∨ w = "days".toList then some 86400000
  else if w = "hr".toList then some 3600000
  else if w = "min".toList then some 60000
  else if w = "sec".toList then some 1000
  else if w = "ms".toList then some 1
  else none

/-- The milliseconds that words tell: numbers, each with its unit. -/
def sum? : List (List Char) → Option Nat
  | [] => some 0
  | [_] => none
  | n :: u :: r => do pure ((← tenths? n) * (← unit? u) / 10 + (← sum? r))

/-- The milliseconds that a text tells. -/
def read? (text : String) : Option Nat := sum? (text.toList.splitOn ' ')

theorem count?_toString (n : Nat) : count? (toString n).toList = some n := by
  rw [count?, if_pos ⟨Text.toList_toString_ne_nil n, Text.all_isDigit_toString n⟩, Text.digitsValue_toString]

theorem not_mem_toString {c : Char} (hc : c.isDigit = false) (n : Nat) : c ∉ (toString n).toList := by
  intro h
  have hdigit := List.all_eq_true.mp (Text.all_isDigit_toString n) c h
  rw [hc] at hdigit
  cases hdigit

theorem tenths?_toString (n : Nat) : tenths? (toString n).toList = some (10 * n) := by
  have hsplit : (toString n).toList.splitOn '.' = [(toString n).toList] :=
    List.splitOn_eq_singleton (not_mem_toString (by decide) n)
  simp only [tenths?, hsplit, count?_toString, Option.map_some]

theorem tenths?_point {t : Nat} (ht : t < 10) (s : Nat) :
    tenths? ((toString s).toList ++ '.' :: (toString t).toList) = some (10 * s + t) := by
  have hdigit : (toString t).toList = [t.digitChar] := by
    rw [Nat.toString_eq_repr, Nat.toList_repr, Nat.toDigits_of_lt_base ht]
  have ht' : count? [t.digitChar] = some t := hdigit ▸ count?_toString t
  have hpoint : '.' ∉ [t.digitChar] := hdigit ▸ not_mem_toString (by decide) t
  have hsplit : ((toString s).toList ++ '.' :: [t.digitChar]).splitOn '.' = [(toString s).toList, [t.digitChar]] := by
    rw [List.splitOn_append_cons_self_of_not_mem (not_mem_toString (by decide) s), List.splitOn_eq_singleton hpoint]
  rw [hdigit]
  simp only [tenths?, hsplit, count?_toString, ht', Option.pure_def, Option.bind_eq_bind, Option.bind_some]

theorem sum?_cons {n u : List Char} {r : List (List Char)} {t k a : Nat} (ht : tenths? n = some t)
    (hk : unit? u = some k) (ha : sum? r = some a) : sum? (n :: u :: r) = some (t * k / 10 + a) := by
  simp only [sum?, ht, hk, ha, Option.pure_def, Option.bind_eq_bind, Option.bind_some]

theorem sum?_count (n : Nat) {u : List Char} {r : List (List Char)} {k a : Nat} (hk : unit? u = some k)
    (ha : sum? r = some a) : sum? ((toString n).toList :: u :: r) = some (n * k + a) := by
  have htenths : 10 * n * k / 10 = n * k := by rw [Nat.mul_assoc, Nat.mul_div_cancel_left _ (by decide)]
  rw [sum?_cons (tenths?_toString n) hk ha, htenths]

/-! ### What was told -/

def Shown.words : Shown → List (List Char)
  | .days d h => [(toString d).toList, (if d = 1 then "day" else "days").toList, (toString h).toList, "hr".toList]
  | .hours h m => [(toString h).toList, "hr".toList, (toString m).toList, "min".toList]
  | .minutes m s => [(toString m).toList, "min".toList, (toString s).toList, "sec".toList]
  | .seconds s => [(toString s).toList, "sec".toList]
  | .tenths s t => [(toString s).toList ++ '.' :: (toString t).toList, "sec".toList]
  | .millis ms => [(toString ms).toList, "ms".toList]

theorem splitOn_text (x : Shown) : x.text.toList.splitOn ' ' = x.words := by
  have hblank (n : Nat) : ' ' ∉ Nat.toDigits 10 n := by simpa using not_mem_toString (c := ' ') (by decide) n
  have htext : x.text.toList = [' '].intercalate x.words := by
    cases x with
    | days d h => by_cases hd : d = 1 <;> simp [Shown.text, Shown.words, hd]
    | _ => simp [Shown.text, Shown.words]
  have hwords : ∀ w ∈ x.words, ' ' ∉ w := by
    cases x with
    | days d h => by_cases hd : d = 1 <;> simp [Shown.words, hblank, hd]
    | _ => simp [Shown.words, hblank]
  rw [htext]
  exact List.splitOn_intercalate ' ' hwords (by cases x <;> exact List.cons_ne_nil _ _)

/-- The counts are in the bounds that the next unit sets, and what is told first is not nothing. -/
def Shown.Usual : Shown → Prop
  | .days d h => 1 ≤ d ∧ h < 24
  | .hours h m => 1 ≤ h ∧ h < 24 ∧ m < 60
  | .minutes m s => 1 ≤ m ∧ m < 60 ∧ s < 60
  | .seconds s => 1 ≤ s ∧ s < 60
  | .tenths s t => 1 ≤ s ∧ s < 10 ∧ 1 ≤ t ∧ t < 10
  | .millis ms => ms < 1000

theorem sum?_words {x : Shown} (hx : x.Usual) : sum? x.words = some x.amount := by
  cases x with
  | days d h =>
    have hunit : unit? (if d = 1 then "day" else "days").toList = some 86400000 := by split <;> rfl
    rw [Shown.words, sum?_count d hunit (sum?_count h rfl rfl), Shown.amount, Option.some.injEq]
    omega
  | hours h m =>
    rw [Shown.words, sum?_count h rfl (sum?_count m rfl rfl), Shown.amount, Option.some.injEq]
    omega
  | minutes m s =>
    rw [Shown.words, sum?_count m rfl (sum?_count s rfl rfl), Shown.amount, Option.some.injEq]
    omega
  | seconds s =>
    rw [Shown.words, sum?_count s rfl rfl, Shown.amount, Nat.add_zero]
  | tenths s t =>
    rw [Shown.words, sum?_cons (tenths?_point hx.2.2.2 s) rfl rfl, Shown.amount, Option.some.injEq]
    omega
  | millis ms =>
    rw [Shown.words, sum?_count ms rfl rfl, Shown.amount, Nat.mul_one, Nat.add_zero]

theorem read?_text {x : Shown} (hx : x.Usual) : read? x.text = some x.amount := by
  rw [read?, splitOn_text, sum?_words hx]

/-! ### How much is told -/

/-- The smallest step that is told of so many milliseconds. -/
def grain (ms : Nat) : Nat :=
  if 86400000 ≤ ms then 3600000
  else if 3600000 ≤ ms then 60000
  else if 10000 ≤ ms then 1000
  else if 1000 ≤ ms then 100
  else 1

/-- So many milliseconds, rounded down to the smallest step that is told of them. -/
def rounded (ms : Nat) : Nat := ms / grain ms * grain ms

theorem grain_pos (ms : Nat) : 0 < grain ms := by
  unfold grain
  split_ifs <;> decide

theorem rounded_le (ms : Nat) : rounded ms ≤ ms := Nat.div_mul_le_self ms (grain ms)

theorem lt_rounded_add (ms : Nat) : ms < rounded ms + grain ms := Nat.lt_div_mul_add (grain_pos ms)

theorem grain_cases (ms : Nat) :
    (86400000 ≤ ms ∧ grain ms = 3600000) ∨ (3600000 ≤ ms ∧ ms < 86400000 ∧ grain ms = 60000) ∨
      (10000 ≤ ms ∧ ms < 3600000 ∧ grain ms = 1000) ∨ (1000 ≤ ms ∧ ms < 10000 ∧ grain ms = 100) ∨
      (ms < 1000 ∧ grain ms = 1) := by
  unfold grain
  split_ifs <;> omega

/-- Where the step changes, it does so at a multiple of the greater one. -/
theorem grain_eq_or {m n : Nat} (h : m ≤ n) : grain m = grain n ∨ ∃ k, m < k * grain n ∧ k * grain n ≤ n := by
  have hm := grain_cases m
  by_cases heq : grain m = grain n
  · exact .inl heq
  · right
    rcases grain_cases n with ⟨hn, hg⟩ | ⟨hn, hn', hg⟩ | ⟨hn, hn', hg⟩ | ⟨hn, hn', hg⟩ | ⟨hn, hg⟩ <;> rw [hg]
    · exact ⟨24, by omega, by omega⟩
    · exact ⟨60, by omega, by omega⟩
    · exact ⟨10, by omega, by omega⟩
    · exact ⟨10, by omega, by omega⟩
    · exact absurd hm (by omega)

theorem rounded_mono {m n : Nat} (h : m ≤ n) : rounded m ≤ rounded n := by
  rcases grain_eq_or h with heq | ⟨k, hm, hn⟩
  · rw [rounded, rounded, heq]
    exact Nat.mul_le_mul_right _ (Nat.div_le_div_right h)
  · have hk : k ≤ n / grain n := (Nat.le_div_iff_mul_le (grain_pos n)).mpr hn
    calc rounded m ≤ m := rounded_le m
      _ ≤ k * grain n := Nat.le_of_lt hm
      _ ≤ rounded n := Nat.mul_le_mul_right _ hk

/-! ### What is told of which span -/

/-- What is told of so many milliseconds. -/
inductive ToldOf (ms : Nat) : Shown → Prop
  | days {d h : Nat} : 86400000 ≤ ms → d = ms / 86400000 → h = ms / 3600000 % 24 → ToldOf ms (.days d h)
  | hours {h m : Nat} : 3600000 ≤ ms → ms < 86400000 → h = ms / 3600000 → m = ms / 60000 % 60 → ToldOf ms (.hours h m)
  | minutes {m s : Nat} : 60000 ≤ ms → ms < 3600000 → m = ms / 60000 → s = ms / 1000 % 60 → ToldOf ms (.minutes m s)
  | seconds {s : Nat} : 10000 ≤ ms → ms < 60000 → s = ms / 1000 → ToldOf ms (.seconds s)
  | full {s : Nat} : 1000 ≤ ms → ms < 10000 → s = ms / 1000 → ms % 1000 / 100 = 0 → ToldOf ms (.seconds s)
  | tenths {s t : Nat} : 1000 ≤ ms → ms < 10000 → s = ms / 1000 → t = ms % 1000 / 100 → t ≠ 0 → ToldOf ms (.tenths s t)
  | millis : ms < 1000 → ToldOf ms (.millis ms)

theorem toldOf_shown {s : Span} (h : s.nanos < 1000000000) : ToldOf s.millis s.shown := by
  have hsec : s.seconds = s.millis / 1000 := by rw [millis]; omega
  rw [shown, hsec]
  generalize s.millis = ms
  simp only [Nat.div_div_eq_div_mul]
  split_ifs with hd hh hm ht hs hf
  · exact .days (by omega) rfl rfl
  · exact .hours (by omega) (by omega) rfl rfl
  · exact .minutes (by omega) (by omega) rfl rfl
  · exact .seconds (by omega) (by omega) rfl
  · exact .full (by omega) (by omega) rfl hf
  · exact .tenths (by omega) (by omega) rfl rfl hf
  · exact .millis (by omega)

/-- What is told as usual is told of its own amount. -/
theorem Shown.Usual.toldOf {x : Shown} (hx : x.Usual) : ToldOf x.amount x := by
  cases x with
  | days d h =>
    obtain ⟨hd, hh⟩ := hx
    rw [amount]
    exact .days (by omega) (by omega) (by omega)
  | hours h m =>
    obtain ⟨hh, hh', hm⟩ := hx
    rw [amount]
    exact .hours (by omega) (by omega) (by omega) (by omega)
  | minutes m s =>
    obtain ⟨hm, hm', hs⟩ := hx
    rw [amount]
    exact .minutes (by omega) (by omega) (by omega) (by omega)
  | seconds s =>
    obtain ⟨hs, hs'⟩ := hx
    rw [amount]
    by_cases hten : 10 ≤ s
    · exact .seconds (by omega) (by omega) (by omega)
    · exact .full (by omega) (by omega) (by omega) (by omega)
  | tenths s t =>
    obtain ⟨hs, hs', ht, ht'⟩ := hx
    rw [amount]
    exact .tenths (by omega) (by omega) (by omega) (by omega) (by omega)
  | millis ms => exact .millis hx

namespace ToldOf

variable {ms : Nat} {x y : Shown}

theorem unique (hx : ToldOf ms x) (hy : ToldOf ms y) : x = y := by
  cases hx <;> cases hy <;> first | omega | (subst_vars; rfl)

theorem usual (h : ToldOf ms x) : x.Usual := by
  cases h with
  | days => exact ⟨by omega, by omega⟩
  | hours => exact ⟨by omega, by omega, by omega⟩
  | minutes => exact ⟨by omega, by omega, by omega⟩
  | seconds => exact ⟨by omega, by omega⟩
  | full => exact ⟨by omega, by omega⟩
  | tenths => exact ⟨by omega, by omega, by omega, by omega⟩
  | millis h => exact h

/-- What is told is all of the span but what is less than the smallest step. -/
theorem amount_eq (h : ToldOf ms x) : x.amount = rounded ms := by
  have hcases := grain_cases ms
  cases h with
  | days =>
    have hg : grain ms = 3600000 := by omega
    rw [rounded, hg, Shown.amount]
    omega
  | hours =>
    have hg : grain ms = 60000 := by omega
    rw [rounded, hg, Shown.amount]
    omega
  | minutes | seconds =>
    have hg : grain ms = 1000 := by omega
    rw [rounded, hg, Shown.amount]
    omega
  | full | tenths =>
    have hg : grain ms = 100 := by omega
    rw [rounded, hg, Shown.amount]
    omega
  | millis =>
    have hg : grain ms = 1 := by omega
    rw [rounded, hg, Shown.amount, Nat.div_one, Nat.mul_one]

end ToldOf

/-- Of the amount that is told the same is told again. -/
theorem shown_ofMillis_amount {x : Shown} (hx : x.Usual) : (ofMillis x.amount).shown = x := by
  have hnanos : (ofMillis x.amount).nanos < 1000000000 := by
    show x.amount % 1000 * 1000000 < 1000000000
    omega
  have htold := toldOf_shown hnanos
  rw [millis_ofMillis] at htold
  exact htold.unique hx.toldOf

def nanoseconds (s : Span) : Nat := s.seconds * 1000000000 + s.nanos

theorem millis_eq (s : Span) : s.millis = s.nanoseconds / 1000000 := by
  rw [millis, nanoseconds]
  omega

/-- **Reading a span back.**  Let a span have less than a second of nanoseconds.  What its text tells, its numbers taken
with their units, is no more than the span, and less than one of the smallest step below it: an hour from a day on, a
minute from an hour on, a second from ten seconds on, a tenth of one from one on, else a millisecond.  Of the amount
that was read the same is told again, and of a longer span no less. -/
theorem text_read_back {s : Span} (h : s.nanos < 1000000000) :
    ∃ a, read? s.text = some a ∧
      (a * 1000000 ≤ s.nanoseconds ∧ s.nanoseconds < (a + grain s.millis) * 1000000) ∧
      (ofMillis a).text = s.text ∧
      ∀ t : Span, t.nanos < 1000000000 → s.nanoseconds ≤ t.nanoseconds → ∃ b, read? t.text = some b ∧ a ≤ b := by
  have hs := toldOf_shown h
  refine ⟨rounded s.millis, ?_, ⟨?_, ?_⟩, ?_, fun t ht hst => ⟨rounded t.millis, ?_, ?_⟩⟩
  · rw [← hs.amount_eq]
    exact read?_text hs.usual
  · have hle := rounded_le s.millis
    rw [millis_eq] at hle ⊢
    omega
  · have hlt := lt_rounded_add s.millis
    rw [millis_eq] at hlt ⊢
    omega
  · rw [← hs.amount_eq, text, shown_ofMillis_amount hs.usual, ← text]
  · rw [← (toldOf_shown ht).amount_eq]
    exact read?_text (toldOf_shown ht).usual
  · rw [millis_eq, millis_eq]
    exact rounded_mono (Nat.div_le_div_right hst)

/-- At the end of the tenths, and the longest span of 64 bits. -/
theorem text_read_back_tenths :
    let s : Span := ⟨9, 999999999⟩
    let t : Span := ⟨18446744073709551615, 999999999⟩
    (s.nanos < 1000000000 ∧ t.nanos < 1000000000 ∧ s.nanoseconds ≤ t.nanoseconds) ∧
      (s.text = "9.9 sec" ∧ t.text = "213503982334601 days 7 hr") ∧ read? s.text = some 9900 ∧
      (ofMillis 9900).text = s.text ∧ ∃ b, read? t.text = some b ∧ 9900 ≤ b := by
  intro s t
  have hs : s.nanos < 1000000000 := by decide
  have ht : t.nanos < 1000000000 := by decide
  have hst : s.nanoseconds ≤ t.nanoseconds := by decide
  have htexts : s.text = "9.9 sec" ∧ t.text = "213503982334601 days 7 hr" := by decide
  have hread : read? s.text = some 9900 := by decide
  obtain ⟨a, ha, -, hagain, hlonger⟩ := text_read_back hs
  cases ha.symm.trans hread
  exact ⟨⟨hs, ht, hst⟩, htexts, hread, hagain, hlonger t ht hst⟩

end Rejoin.Span
