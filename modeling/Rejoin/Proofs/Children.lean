import Mathlib.Data.List.Induction
import Rejoin.Dir

/-!
# Children of directories

A relative path may be spelled with `./` in front of it and slashes behind it, as often as one likes.

* `Dir.spelling` — such a spelling of a path, and `Dir.bare`, what is left of a path without all that;
* `Dir.Plain` — a path that is neither empty nor the directory itself, and spelled without any of it.  Paths of this
  kind can be joined (`Dir.Plain.join`);
* `Dir.relative_spelled` — all spellings of a path lead to the same place;
* `Dir.childPath_of_plain` — the place that a bare path leads to;
* `Dir.child_of_spelling` — where a child lies, when two of them are one, and the child of a child.
-/

namespace Rejoin.Dir

/-- `./` so many times. -/
def dots (m : Nat) : List Char := (List.replicate m ['.', '/']).flatten

def slashes (n : Nat) : List Char := List.replicate n '/'

/-- A path with some `./` in front of it and some slashes behind it. -/
def spelled (m : Nat) (cs : List Char) (n : Nat) : List Char := dots m ++ cs ++ slashes n

/-- What is left of a path without any `./` at its front, and then without any slash at its end. -/
def strip (cs : List Char) : List Char := dropSlashes (dropDots cs)

variable {cs a b : List Char}

/-! ### The front of a path -/

theorem dropDots_dots_append (m : Nat) (cs : List Char) : dropDots (dots m ++ cs) = dropDots cs := by
  induction m with
  | zero => rfl
  | succ m ih => exact ih

theorem exists_dots (cs : List Char) : ∃ m, cs = dots m ++ dropDots cs := by
  fun_induction dropDots cs with
  | case1 r ih =>
    obtain ⟨m, hm⟩ := ih
    exact ⟨m + 1, congrArg ('.' :: '/' :: ·) hm⟩
  | case2 cs => exact ⟨0, rfl⟩

theorem dropDots_of_not_prefix (h : ¬ ['.', '/'] <+: cs) : dropDots cs = cs := by
  unfold dropDots
  split
  next r => exact absurd (List.prefix_append ['.', '/'] r) h
  next => rfl

theorem not_prefix_dropDots (cs : List Char) : ¬ ['.', '/'] <+: dropDots cs := by
  fun_induction dropDots cs with
  | case1 r ih => exact ih
  | case2 cs hcs =>
    rintro ⟨r, hr⟩
    exact hcs r hr.symm

/-! ### The end of a path -/

theorem dropSlashes_concat (cs : List Char) (c : Char) :
    dropSlashes (cs ++ [c]) = if c = '/' then dropSlashes cs else cs ++ [c] := by
  rw [dropSlashes, List.reverse_concat, List.dropWhile_cons]
  by_cases h : c = '/' <;> simp [h, dropSlashes]

theorem dropSlashes_append_slashes (cs : List Char) (n : Nat) : dropSlashes (cs ++ slashes n) = dropSlashes cs := by
  induction n with
  | zero => rw [slashes, List.replicate_zero, List.append_nil]
  | succ n ih => rw [slashes, List.replicate_succ', ← List.append_assoc, dropSlashes_concat, if_pos rfl, ← slashes, ih]

theorem exists_slashes (cs : List Char) : ∃ n, cs = dropSlashes cs ++ slashes n := by
  induction cs using List.reverseRecOn with
  | nil => exact ⟨0, rfl⟩
  | append_singleton cs c ih =>
    rw [dropSlashes_concat]
    split
    next h =>
      obtain ⟨n, hn⟩ := ih
      refine ⟨n + 1, ?_⟩
      rw [slashes, List.replicate_succ', ← List.append_assoc, ← slashes, ← hn, h]
    next => exact ⟨0, (List.append_nil _).symm⟩

theorem getLast?_dropSlashes (cs : List Char) : (dropSlashes cs).getLast? ≠ some '/' := by
  induction cs using List.reverseRecOn with
  | nil => nofun
  | append_singleton cs c ih =>
    rw [dropSlashes_concat]
    split
    next => exact ih
    next h =>
      rw [List.getLast?_concat]
      exact fun e => h (Option.some.inj e)

theorem dropSlashes_of_getLast? (h : cs.getLast? ≠ some '/') : dropSlashes cs = cs := by
  induction cs using List.reverseRecOn with
  | nil => rfl
  | append_singleton cs c _ =>
    rw [List.getLast?_concat] at h
    rw [dropSlashes_concat, if_neg fun e => h (congrArg some e)]

theorem getLast?_join (a : List Char) (h : b ≠ []) : (a ++ '/' :: b).getLast? = b.getLast? := by
  obtain ⟨r, c, rfl⟩ : ∃ r c, b = r ++ [c] := ⟨_, _, (List.dropLast_concat_getLast h).symm⟩
  rw [← List.cons_append, ← List.append_assoc, List.getLast?_concat, List.getLast?_concat]

/-! ### Spellings -/

theorem spelled_spelled (m k n l : Nat) (cs : List Char) :
    spelled m (spelled k cs n) l = spelled (m + k) cs (n + l) := by
  simp only [spelled, dots, slashes, ← List.replicate_append_replicate, List.flatten_append, List.append_assoc]

/-- Every path is a spelling of what is left of it. -/
theorem exists_spelled (cs : List Char) : ∃ m n, cs = spelled m (strip cs) n := by
  obtain ⟨m, hm⟩ := exists_dots cs
  obtain ⟨n, hn⟩ := exists_slashes (dropDots cs)
  refine ⟨m, n, ?_⟩
  rw [spelled, List.append_assoc, strip, ← hn, ← hm]

theorem not_prefix_strip (cs : List Char) : ¬ ['.', '/'] <+: strip cs := by
  intro h
  obtain ⟨n, hn⟩ := exists_slashes (dropDots cs)
  refine not_prefix_dropDots cs ?_
  rw [hn]
  exact h.trans (List.prefix_append _ _)

/-- A path that leads somewhere and has only its plainest spelling. -/
structure Plain (cs : List Char) : Prop where
  ne_nil : cs ≠ []
  ne_dot : cs ≠ ['.']
  not_prefix : ¬ ['.', '/'] <+: cs
  getLast? : cs.getLast? ≠ some '/'

theorem plain_strip (hn : strip cs ≠ []) (hd : strip cs ≠ ['.']) : Plain (strip cs) :=
  ⟨hn, hd, not_prefix_strip cs, getLast?_dropSlashes _⟩

namespace Plain

theorem not_prefix_append (h : Plain cs) (r : List Char) : ¬ ['.', '/'] <+: cs ++ r := by
  obtain ⟨hnil, hdot, hpre, -⟩ := h
  match cs with
  | [] => exact absurd rfl hnil
  | [c] =>
    intro hp
    obtain ⟨rfl, -⟩ := List.cons_prefix_cons.mp hp
    exact hdot rfl
  | c :: c' :: cs =>
    intro hp
    obtain ⟨rfl, hp'⟩ := List.cons_prefix_cons.mp hp
    obtain ⟨rfl, -⟩ := List.cons_prefix_cons.mp hp'
    exact hpre (List.prefix_append ['.', '/'] cs)

theorem strip_spelled (h : Plain cs) (m n : Nat) : strip (spelled m cs n) = cs := by
  rw [strip, spelled, List.append_assoc, dropDots_dots_append, dropDots_of_not_prefix (h.not_prefix_append _),
    dropSlashes_append_slashes, dropSlashes_of_getLast? h.getLast?]

theorem strip_eq (h : Plain cs) : strip cs = cs := by
  have hs := h.strip_spelled 0 0
  rwa [spelled, slashes, List.replicate_zero, List.append_nil] at hs

/-- Plain paths can be joined. -/
theorem join (ha : Plain a) (hb : Plain b) : Plain (a ++ '/' :: b) where
  ne_nil := List.append_ne_nil_of_left_ne_nil ha.ne_nil _
  ne_dot := by
    intro h
    have hmem : '/' ∈ ['.'] := by
      rw [← h]
      exact List.mem_append_right _ List.mem_cons_self
    exact absurd hmem (by decide)
  not_prefix := ha.not_prefix_append _
  getLast? := by
    rw [getLast?_join a hb.ne_nil]
    exact hb.getLast?

end Plain

/-! ### Where they lead -/

theorem relative_of_plain (h : Plain (strip cs)) : relative cs = strip cs := by
  show (if strip cs = ['.'] then [] else strip cs) = _
  rw [if_neg h.ne_dot]

theorem relative_of_not_plain (h : strip cs = [] ∨ strip cs = ['.']) : relative cs = [] := by
  show (if strip cs = ['.'] then [] else strip cs) = _
  rcases h with h | h <;> simp [h]

theorem relative_spelled_of_not_plain (m n : Nat) (h : cs = [] ∨ cs = ['.']) : relative (spelled m cs n) = [] := by
  have hslashes (k : Nat) : strip (slashes k) = [] := by
    have hdots : dropDots (slashes k) = slashes k := by cases k <;> rfl
    rw [strip, hdots, ← List.nil_append (slashes k), dropSlashes_append_slashes]
    rfl
  have hstrip : strip (spelled m cs n) = strip (cs ++ slashes n) := by
    rw [strip, spelled, List.append_assoc, dropDots_dots_append, strip]
  apply relative_of_not_plain
  rw [hstrip]
  rcases h with rfl | rfl
  · exact .inl (hslashes n)
  · cases n with
    | zero => exact .inr rfl
    | succ n => exact .inl (hslashes n)

/-- All spellings of a path lead to the same place. -/
theorem relative_spelled (m : Nat) (cs : List Char) (n : Nat) : relative (spelled m cs n) = relative cs := by
  obtain ⟨k, l, hcs⟩ := exists_spelled cs
  have hspelled : spelled m cs n = spelled (m + k) (strip cs) (l + n) := by
    rw [← spelled_spelled, ← hcs]
  by_cases h : strip cs = [] ∨ strip cs = ['.']
  · rw [hspelled, relative_spelled_of_not_plain _ _ h, relative_of_not_plain h]
  · have hp : Plain (strip cs) := plain_strip (fun e => h (.inl e)) (fun e => h (.inr e))
    have hs : strip (spelled m cs n) = strip cs := by rw [hspelled, hp.strip_spelled]
    rw [relative_of_plain hp, relative_of_plain (hs ▸ hp), hs]

section ChildPath

variable (base : List Char) (ha : a.head? ≠ some '/')
include ha

theorem childPath_eq : childPath base a = if relative a = [] then base else dropSlashes base ++ '/' :: relative a :=
  if_neg ha

theorem childPath_of_plain (hp : Plain (strip a)) : childPath base a = dropSlashes base ++ '/' :: strip a := by
  rw [childPath_eq base ha, relative_of_plain hp, if_neg hp.ne_nil]

theorem childPath_of_not_plain (h : strip a = [] ∨ strip a = ['.']) : childPath base a = base := by
  rw [childPath_eq base ha, if_pos (relative_of_not_plain h)]

theorem childPath_spelled {m n : Nat} (hs : (spelled m a n).head? ≠ some '/') :
    childPath base (spelled m a n) = childPath base a := by
  rw [childPath_eq base hs, childPath_eq base ha, relative_spelled]

/-- The child of a child is the one at the joined path. -/
theorem childPath_childPath (hb : b.head? ≠ some '/') (hpa : Plain (strip a)) (hpb : Plain (strip b))
    (hs : (strip a).head? ≠ some '/') :
    childPath (childPath base a) b = childPath base (strip a ++ '/' :: strip b) := by
  have hjoin : Plain (strip a ++ '/' :: strip b) := hpa.join hpb
  have hhead : (strip a ++ '/' :: strip b).head? ≠ some '/' := by
    obtain ⟨c, r, hc⟩ := List.exists_cons_of_ne_nil hpa.ne_nil
    rw [hc] at hs ⊢
    exact hs
  have hlast : (dropSlashes base ++ '/' :: strip a).getLast? ≠ some '/' := by
    rw [getLast?_join _ hpa.ne_nil]
    exact hpa.getLast?
  rw [childPath_of_plain base ha hpa, childPath_of_plain _ hb hpb, dropSlashes_of_getLast? hlast,
    childPath_of_plain base hhead (hjoin.strip_eq.symm ▸ hjoin), hjoin.strip_eq, List.append_assoc]
  rfl

end ChildPath

/-! ### Children -/

/-- A path spelled with some `./` in front of it and some slashes behind it. -/
def spelling (m : Nat) (path : String) (n : Nat) : String := String.ofList (spelled m path.toList n)

/-- What is left of a path without any `./` at its front, and then without any slash at its end. -/
def bare (path : String) : String := String.ofList (strip path.toList)

@[simp] theorem toList_spelling (m : Nat) (path : String) (n : Nat) :
    (spelling m path n).toList = spelled m path.toList n := String.toList_ofList

@[simp] theorem toList_bare (path : String) : (bare path).toList = strip path.toList := String.toList_ofList

theorem bare_eq_iff {path s : String} : bare path = s ↔ strip path.toList = s.toList := by
  rw [← String.toList_inj, toList_bare]

theorem plain_of_bare {path : String} (h : ¬ (bare path = "" ∨ bare path = ".")) : Plain (strip path.toList) := by
  rw [bare_eq_iff, bare_eq_iff, not_or] at h
  exact plain_strip h.1 h.2

/-- The path of a child, told by what is left of the path that leads to it. -/
theorem path_child (d : Dir) {path : String} (hp : path.toList.head? ≠ some '/') : (d.child path).path =
    if bare path = "" ∨ bare path = "." then d.path
    else String.ofList (dropSlashes d.path.toList) ++ "/" ++ bare path := by
  rw [← String.toList_inj, toList_child_path]
  split
  next h =>
    rw [bare_eq_iff, bare_eq_iff] at h
    exact childPath_of_not_plain _ hp h
  next h =>
    rw [childPath_of_plain _ hp (plain_of_bare h)]
    simp

theorem eq_of_path {d e : Dir} (hn : d.node = e.node) (hc : d.channel = e.channel)
    (hp : d.path.toList = e.path.toList) : d = e := by
  obtain ⟨node, path, channel⟩ := d
  obtain ⟨node', path', channel'⟩ := e
  rw [Dir.mk.injEq]
  exact ⟨hn, String.toList_inj.mp hp, hc⟩

/-- **Children.**  Let two paths not begin with a slash.  What is left of a path without any `./` at its front, and then
without any slash at its end, decides on the child.  If that is nothing, or the directory itself, the child is the
directory; else its path is that of the directory without the slashes at its end, and behind one more slash what is
left. All spellings of a path have one child.  The child of a child is the child at the joined path.  Node and channel
are those of the directory. -/
theorem child_of_spelling (d : Dir) {a b : String} (ha : a.toList.head? ≠ some '/') (hb : b.toList.head? ≠ some '/') :
    ((∃ m n, a = spelling m (bare a) n) ∧ ¬ ['.', '/'] <+: (bare a).toList ∧ (bare a).toList.getLast? ≠ some '/') ∧
      (∃ base n, d.path = base ++ String.ofList (slashes n) ∧ base.toList.getLast? ≠ some '/' ∧
        (d.child a).path = if bare a = "" ∨ bare a = "." then d.path else base ++ "/" ++ bare a) ∧
      (∀ m n, (spelling m a n).toList.head? ≠ some '/' → d.child (spelling m a n) = d.child a) ∧
      (¬ (bare a = "" ∨ bare a = ".") → ¬ (bare b = "" ∨ bare b = ".") → (bare a).toList.head? ≠ some '/' →
        (d.child a).child b = d.child (bare a ++ "/" ++ bare b)) ∧
      (d.child a).node = d.node ∧ (d.child a).channel = d.channel := by
  refine ⟨⟨?_, ?_, ?_⟩, ?_, ?_, ?_, child_node d a, child_channel d a⟩
  · obtain ⟨m, n, h⟩ := exists_spelled a.toList
    refine ⟨m, n, String.toList_inj.mp ?_⟩
    rw [toList_spelling, toList_bare, ← h]
  · rw [toList_bare]
    exact not_prefix_strip _
  · rw [toList_bare]
    exact getLast?_dropSlashes _
  · obtain ⟨n, hn⟩ := exists_slashes d.path.toList
    refine ⟨String.ofList (dropSlashes d.path.toList), n, ?_, ?_, path_child d ha⟩
    · rw [← String.ofList_append, ← hn, String.ofList_toList]
    · rw [String.toList_ofList]
      exact getLast?_dropSlashes _
  · intro m n hs
    refine eq_of_path rfl rfl ?_
    rw [toList_child_path, toList_child_path]
    rw [toList_spelling] at hs ⊢
    exact childPath_spelled _ ha hs
  · intro hpa hpb hs
    refine eq_of_path rfl rfl ?_
    rw [toList_bare] at hs
    simp only [toList_child_path, String.toList_append, toList_bare, List.append_assoc]
    exact childPath_childPath _ ha hb (plain_of_bare hpa) (plain_of_bare hpb) hs

/-- Two steps down from a directory whose path ends in slashes. -/
theorem child_of_spelling_twice :
    let d : Dir := ⟨"w", "/ws//", 2⟩
    let a := "././sub/"
    let b := "./.x"
    (a.toList.head? ≠ some '/' ∧ b.toList.head? ≠ some '/') ∧ (bare a = "sub" ∧ bare b = ".x") ∧
      (d.child a).path = "/ws/sub" ∧ d.child "./././sub///" = d.child a ∧
      (d.child a).child b = d.child "sub/.x" := by
  intro d a b
  have ha : a.toList.head? ≠ some '/' := by decide
  have hb : b.toList.head? ≠ some '/' := by decide
  have hbare : bare a = "sub" ∧ bare b = ".x" := by decide
  have hspelled : spelling 1 a 2 = "./././sub///" := by decide
  obtain ⟨-, -, hspelling, hjoin, -⟩ := child_of_spelling d ha hb
  have hother := hspelling 1 2
  rw [hspelled] at hother
  rw [hbare.1, hbare.2] at hjoin
  exact ⟨⟨ha, hb⟩, hbare, by decide, hother (by decide), hjoin (by decide) (by decide) (by decide)⟩

end Rejoin.Dir
