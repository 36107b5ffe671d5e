import Rejoin.Controller
import Rejoin.Proofs.Text.Utf8

/-!
# What was printed, read back

Any number of consoles may lead to one transcript, and bytes may be written to it without a console.

* `Output` — a line through one of the consoles, or bytes; `Controller.putAll` — outputs one after the other, as they
  come from whoever holds a console;
* `Output.bytesTo`, `Output.lineTo?` — what an output brings to one transcript;
* `Controller.bytes_putAll` — a new transcript has these bytes in this order;
* `Text.lines_unlines` — lines that were ended by line feeds are told apart again;
* `Controller.printed_read_back` — the lines and the text of a transcript.
-/

namespace Rejoin

/-! ### One transcript -/

/-- The text of lines that are ended by a line feed each. -/
def Text.unlines (ls : List String) : List Char := ls.flatMap fun l => l.toList ++ ['\n']

theorem Text.lines_unlines {ls : List String} (h : ∀ l ∈ ls, '\n' ∉ l.toList ∧ l.toList.getLast? ≠ some '\r') :
    Text.lines (Text.unlines ls) = ls.map String.toList := by
  induction ls with
  | nil => rfl
  | cons l ls ih =>
    obtain ⟨hfeed, hreturn⟩ := h l List.mem_cons_self
    have hend : l.toList.reverse.head? ≠ some '\r' := by rwa [List.head?_reverse]
    have hrest : Text.lines (Text.unlines ls) = ls.map String.toList := ih fun l' hm => h l' (List.mem_cons_of_mem _ hm)
    rw [Text.unlines, List.flatMap_cons, ← Text.unlines, List.append_assoc, List.singleton_append,
      Text.lines_append_lf hfeed, Text.endLine_of_ne hend, List.reverse_reverse, hrest, List.map_cons]

namespace Transcript

theorem lines_of_bytes {t : Transcript} {ls : List String} (hb : t.bytes = Text.Utf8.encode (Text.unlines ls))
    (h : ∀ l ∈ ls, '\n' ∉ l.toList ∧ l.toList.getLast? ≠ some '\r') : t.lines = ls := by
  have hstrings : (ls.map String.toList).map String.ofList = ls := by simp [Function.comp_def]
  rw [lines, hb, Text.Utf8.decode_encode, Text.lines_unlines h, hstrings]

/-- The contents are the text that was written, exactly if it was one. -/
theorem toUTF8_contents_iff (t : Transcript) :
    t.contents.toUTF8 = t.bytes.toByteArray ↔ t.bytes.toByteArray.IsValidUTF8 := by
  rw [String.toUTF8_eq_toByteArray]
  constructor
  · intro h
    rw [← h]
    exact t.contents.isValidUTF8
  · rintro ⟨cs, hcs⟩
    have htext : t.bytes.toByteArray = (String.ofList cs).toByteArray := by rw [hcs, String.toByteArray_ofList]
    rw [contents, Text.Utf8.decode_of_toByteArray htext, String.ofList_toList, htext]

end Transcript

/-! ### Outputs -/

/-- Something that is put out: a line through one of the consoles, or bytes for the transcript of a number. -/
inductive Output (ι : Type) where
  | line (via : ι) (text : String)
  | bytes (transcript : Nat) (bs : List UInt8)

variable {ι : Type} (console : ι → Console) (n : Nat)

namespace Output

/-- The bytes that it brings to a transcript. -/
def bytesTo : Output ι → List UInt8
  | .line via text => if console via = .transcript n then Text.Utf8.encode (text.toList ++ ['\n']) else []
  | .bytes m bs => if m = n then bs else []

/-- The line that it prints to a transcript. -/
def lineTo? : Output ι → Option String
  | .line via text => if console via = .transcript n then some text else none
  | .bytes _ _ => none

theorem bytesTo_of_lineTo? {o : Output ι} (h : ∀ bs, o ≠ .bytes n bs) :
    o.bytesTo console n = Text.Utf8.encode (Text.unlines (o.lineTo? console n).toList) := by
  cases o with
  | line via text =>
    simp only [bytesTo, lineTo?]
    split <;> simp [Text.unlines]
  | bytes m bs =>
    have hm : m ≠ n := fun e => h bs (e ▸ rfl)
    simp [bytesTo, lineTo?, hm, Text.unlines]

theorem flatMap_bytesTo {os : List (Output ι)} (h : ∀ bs, Output.bytes n bs ∉ os) :
    os.flatMap (bytesTo console n) = Text.Utf8.encode (Text.unlines (os.filterMap (lineTo? console n))) := by
  induction os with
  | nil => rfl
  | cons o os ih =>
    have ho : ∀ bs, o ≠ .bytes n bs := fun bs e => h bs (e ▸ List.mem_cons_self)
    rw [List.flatMap_cons, bytesTo_of_lineTo? console n ho, ih fun bs hm => h bs (List.mem_cons_of_mem _ hm),
      List.filterMap_cons, ← Text.Utf8.encode_append]
    cases o.lineTo? console n <;> simp [Text.unlines]

end Output

/-! ### Many outputs -/

namespace Controller

def put (c : Controller) : Output ι → Controller
  | .line via text => c.println (console via) text
  | .bytes m bs => { c with transcripts := c.transcripts.modify m (·.write bs) }

def putAll (c : Controller) (os : List (Output ι)) : Controller := os.foldl (put console) c

theorem length_put (c : Controller) (o : Output ι) : (c.put console o).transcripts.length = c.transcripts.length := by
  cases o with
  | line via text =>
    simp only [put, println]
    split <;> simp
  | bytes m bs => simp [put]

variable {n}

theorem transcript_put {c : Controller} (hn : n < c.transcripts.length) (o : Output ι) :
    (c.put console o).transcript n = (c.transcript n).write (o.bytesTo console n) := by
  have hnothing (t : Transcript) : t.write [] = t := by simp [Transcript.write]
  cases o with
  | line via text =>
    simp only [put, println, Output.bytesTo]
    cases console via with
    | silent => simp [hnothing]
    | broken => simp [hnothing, transcript]
    | transcript m => by_cases hm : m = n <;> simp [transcript, hn, hm, hnothing, Transcript.println]
  | bytes m bs => by_cases hm : m = n <;> simp [put, Output.bytesTo, transcript, hn, hm, hnothing]

theorem transcript_putAll {c : Controller} (hn : n < c.transcripts.length) (os : List (Output ι)) :
    (c.putAll console os).transcript n = (c.transcript n).write (os.flatMap (Output.bytesTo console n)) := by
  induction os generalizing c with
  | nil => simp [putAll, Transcript.write]
  | cons o os ih =>
    have hput : n < (c.put console o).transcripts.length := by rwa [length_put]
    calc (c.putAll console (o :: os)).transcript n
        = ((c.put console o).putAll console os).transcript n := rfl
      _ = ((c.put console o).transcript n).write (os.flatMap (Output.bytesTo console n)) := ih hput
      _ = (c.transcript n).write ((o :: os).flatMap (Output.bytesTo console n)) := by
        rw [transcript_put console hn, Transcript.write_write, List.flatMap_cons]

/-- A new transcript has the bytes that are brought to it, and no others. -/
theorem bytes_putAll {c c₀ : Controller} (hnew : c₀.newTranscript = (n, c)) (os : List (Output ι)) :
    ((c.putAll console os).transcript n).bytes = os.flatMap (Output.bytesTo console n) := by
  obtain ⟨rfl, rfl⟩ := Prod.mk.inj hnew
  have hn : c₀.transcripts.length < (c₀.transcripts ++ [({} : Transcript)]).length := by simp
  rw [transcript_putAll console hn]
  simp [transcript]

/-- **What was printed is read back.**  Let a transcript be new, any number of consoles lead to it, and outputs follow,
one after the other, through these consoles or others, or without one.  If nothing came to the transcript but lines
without line feeds, and without carriage returns at their ends, its lines are these in this order.  In any case its
contents are the text that was written, exactly if the bytes, all together, were those of a text; and other outputs that
bring the same bytes to it, cut in any other way, lead to the same contents. -/
theorem printed_read_back {c₀ c : Controller} (hnew : c₀.newTranscript = (n, c)) (os : List (Output ι)) :
    let transcript := (c.putAll console os).transcript n
    let printed := os.filterMap (Output.lineTo? console n)
    let written := os.flatMap (Output.bytesTo console n)
    ((∀ bs, Output.bytes n bs ∉ os) → (∀ l ∈ printed, '\n' ∉ l.toList ∧ l.toList.getLast? ≠ some '\r') →
        transcript.lines = printed) ∧
      (transcript.contents.toUTF8 = written.toByteArray ↔ written.toByteArray.IsValidUTF8) ∧
      ∀ os' : List (Output ι), os'.flatMap (Output.bytesTo console n) = written →
        ((c.putAll console os').transcript n).contents = transcript.contents := by
  intro transcript printed written
  have hbytes : transcript.bytes = written := bytes_putAll console hnew os
  refine ⟨fun hraw hlines => ?_, ?_, fun os' hsame => ?_⟩
  · refine Transcript.lines_of_bytes ?_ hlines
    rw [hbytes]
    exact Output.flatMap_bytesTo console n hraw
  · rw [← hbytes]
    exact Transcript.toUTF8_contents_iff transcript
  · have hbytes' : ((c.putAll console os').transcript n).bytes = transcript.bytes := by
      rw [bytes_putAll console hnew, hsame, hbytes]
    rw [Transcript.contents, hbytes', ← Transcript.contents]

/-- Two consoles of one transcript, with a character that is written in two pieces. -/
theorem printed_read_back_through_two :
    let consoles : Bool → Console := fun _ => .transcript 0
    let c := Controller.fresh.newTranscript.2
    let lines : List (Output Bool) := [.line true "a\rb", .line false "", .line true "é😀"]
    let pieces : List (Output Bool) := [.bytes 0 [0xC3], .bytes 1 [0x41], .bytes 0 [0xA9, 0x0A]]
    Controller.fresh.newTranscript = (0, c) ∧
      ((c.putAll consoles lines).transcript 0).lines = ["a\rb", "", "é😀"] ∧
      ((c.putAll consoles pieces).transcript 0).contents.toUTF8 = [0xC3, 0xA9, 0x0A].toByteArray ∧
      ((c.putAll consoles pieces).transcript 0).contents =
        ((c.putAll consoles [.line false "é"]).transcript 0).contents := by
  intro consoles c lines pieces
  have hnew : Controller.fresh.newTranscript = (0, c) := rfl
  obtain ⟨hlines, -, -⟩ := printed_read_back consoles hnew lines
  obtain ⟨-, hcontents, hsame⟩ := printed_read_back consoles hnew pieces
  have hvalid : [(0xC3 : UInt8), 0xA9, 0x0A].toByteArray.IsValidUTF8 := ⟨['é', '\n'], by decide⟩
  refine ⟨hnew, hlines (by simp [lines]) (by decide), hcontents.mpr hvalid, ?_⟩
  exact (hsame [.line false "é"] (by decide)).symm

end Controller

end Rejoin
