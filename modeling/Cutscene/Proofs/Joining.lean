import Cutscene.Proofs.FaultyLines
import Cutscene.Proofs.Markers
import Cutscene.Proofs.Trimming
import Mathlib.Data.List.Forall2

/-! Texts joined by a line feed. The lines of the first text come before those of the second, and
each line is read by itself: what is read of the whole is what is read of the first text and then
what is read of the second, with its lines counted on. Nothing that counts is left out, and it makes
no difference whether lines end with a line feed or with a carriage return before it. -/

namespace Cutscene

namespace Text

/-- Each line feed with a carriage return put before it. -/
def withReturns (s : List Char) : List Char :=
  s.flatMap fun c => if c = '\n' then ['\r', '\n'] else [c]

theorem trim_dropReturn (line : List Char) : trim (dropReturn line) = trim line := by
  unfold dropReturn
  split
  · next hlast =>
    obtain ⟨kept, rfl⟩ := List.getLast?_eq_some_iff.mp hlast
    rw [List.dropLast_concat, trim_append_right (List.forall_mem_singleton.mpr (by decide))]
  · rfl

theorem length_splitLines (s : List Char) : (splitLines s).length = s.count '\n' + 1 := by
  induction s with
  | nil => rfl
  | cons c s ih =>
    rw [splitLines]
    split
    · next hc => simp [hc, ih]
    · next hc =>
      cases hs : splitLines s with
      | nil => exact absurd hs (splitLines_ne_nil s)
      | cons line rest =>
        rw [hs] at ih
        simpa [List.count_cons_of_ne hc] using ih

/-- The pieces between line feeds, some of them with a carriage return that went before one. -/
theorem splitLines_withReturns (s : List Char) :
    List.Forall₂ (fun piece piece' => piece' = piece ∨ piece' = piece ++ ['\r'])
      (splitLines s) (splitLines (withReturns s)) := by
  induction s with
  | nil => exact .cons (Or.inl rfl) .nil
  | cons c s ih =>
    by_cases hc : c = '\n'
    · subst hc
      have hreturn : withReturns ('\n' :: s) = ['\r'] ++ '\n' :: withReturns s := by
        simp [withReturns]
      rw [hreturn, splitLines_append_break, splitLines, if_pos rfl]
      exact .cons (Or.inr rfl) ih
    · have hkept : withReturns (c :: s) = c :: withReturns s := by simp [withReturns, hc]
      rw [hkept, splitLines, splitLines, if_neg hc, if_neg hc]
      cases hs : splitLines s with
      | nil => exact absurd hs (splitLines_ne_nil s)
      | cons piece rest =>
        rw [hs] at ih
        obtain ⟨piece', rest', hpiece, hrest, hs'⟩ := List.forall₂_cons_left_iff.mp ih
        rw [hs']
        refine .cons ?_ hrest
        rcases hpiece with rfl | rfl
        · exact Or.inl rfl
        · exact Or.inr rfl

theorem trim_splitLines_withReturns (s : List Char) :
    (splitLines (withReturns s)).map trim = (splitLines s).map trim := by
  have hpieces := splitLines_withReturns s
  generalize splitLines s = pieces at hpieces
  generalize splitLines (withReturns s) = pieces' at hpieces
  induction hpieces with
  | nil => rfl
  | cons hpiece _ ih =>
    rw [List.map_cons, List.map_cons, ih]
    rcases hpiece with rfl | rfl
    · rfl
    · rw [trim_append_right (List.forall_mem_singleton.mpr (by decide))]

end Text

/-- The instruction so many lines further down. -/
def Instruction.moved (k : Nat) : Instruction → Instruction
  | .marker name literal line => .marker name literal (line + k)
  | .call c => .call { c with line := c.line + k }

def Location.moved (k : Nat) (l : Location) : Location := { l with line := l.line + k }

def Fault.moved (k : Nat) (f : Fault) : Fault := { f with location := f.location.map (·.moved k) }

namespace Script

/-- The reading of one line. -/
def reading (file : String) (p : List Char × Nat) : Except Fault Instruction :=
  match readLine p.1 p.2 with
  | .ok i => .ok i
  | .error cause => .error { cause, location := some ⟨file, p.2⟩ }

section Lines

variable (first k : Nat) (source s t : List Char)

theorem readings_eq (file : String) :
    readings file source = (numbered 1 (dropMark source)).map (reading file) := rfl

/-- Which endings the lines have does not matter, nor whether the last one is empty. -/
theorem numbered_eq : numbered first source =
    (((Text.splitLines source).map Text.trim).zipIdx first).filter fun p => !isIgnored p.1 := by
  rw [numbered, Text.lines]
  induction Text.splitLines source generalizing first with
  | nil => rfl
  | cons piece pieces ih =>
    cases pieces with
    | nil =>
      cases piece with
      | nil => rfl
      | cons c piece => rfl
    | cons next rest =>
      rw [Text.endLines, List.map_cons, List.map_cons, List.zipIdx_cons, List.zipIdx_cons,
        List.filter_cons, List.filter_cons, Text.trim_dropReturn, ih]
      simp

theorem numbered_append_break : numbered first (s ++ '\n' :: t) =
    numbered first s ++ numbered (first + (s.count '\n' + 1)) t := by
  rw [numbered_eq, numbered_eq, numbered_eq, Text.splitLines_append_break, List.map_append,
    List.zipIdx_append, List.filter_append, List.length_map, Text.length_splitLines]

theorem numbered_add :
    numbered (first + k) source = (numbered first source).map fun p => (p.1, p.2 + k) := by
  rw [numbered_eq, numbered_eq, Nat.add_comm, ← List.map_snd_add_zipIdx_eq_zipIdx, List.filter_map]
  rfl

theorem numbered_withReturns :
    numbered first (Text.withReturns source) = numbered first source := by
  rw [numbered_eq, numbered_eq, Text.trim_splitLines_withReturns]

theorem dropMark_withReturns :
    dropMark (Text.withReturns source) = Text.withReturns (dropMark source) := by
  cases source with
  | nil => rfl
  | cons c source =>
    by_cases hmark : c = '\ufeff'
    · subst hmark
      rfl
    · by_cases hc : c = '\n'
      · subst hc
        rfl
      · simp [dropMark, Text.dropFront, Text.withReturns, hmark, hc]

theorem dropMark_append_break : dropMark (s ++ '\n' :: t) = dropMark s ++ '\n' :: t := by
  cases s with
  | nil => rfl
  | cons c s =>
    simp only [dropMark, List.cons_append, Text.dropFront]
    split <;> rfl

theorem count_dropMark : (dropMark s).count '\n' = s.count '\n' := by
  cases s with
  | nil => rfl
  | cons c s =>
    simp only [dropMark, Text.dropFront]
    split
    · next hmark => rw [hmark, List.count_cons_of_ne (by decide)]
    · rfl

theorem dropMark_of_unmarked {t : List Char} (h : t.head? ≠ some '\ufeff') : dropMark t = t := by
  cases t with
  | nil => rfl
  | cons c t =>
    have hc : c ≠ '\ufeff' := by simpa using h
    rw [dropMark, Text.dropFront, if_neg hc]

end Lines

theorem readLine_add (line : List Char) (n k : Nat) :
    readLine line (n + k) = (readLine line n).map (·.moved k) := by
  unfold readLine
  split
  · split <;> rfl
  · split
    · cases parametersOf (line.dropWhile isNameChar) <;> rfl
    · rfl

section Readings

variable (file : String) (p : List Char × Nat) (k : Nat)

theorem instruction?_reading_add : instruction? (reading file (p.1, p.2 + k)) =
    (instruction? (reading file p)).map (·.moved k) := by
  unfold reading
  rw [readLine_add]
  cases readLine p.1 p.2 <;> rfl

theorem fault?_reading_add : fault? (reading file (p.1, p.2 + k)) =
    (fault? (reading file p)).map (·.moved k) := by
  unfold reading
  rw [readLine_add]
  cases readLine p.1 p.2 <;> rfl

theorem parse_instructions_eq (source : String) : (parse file source).script.instructions =
    (numbered 1 (dropMark source.toList)).filterMap fun p => instruction? (reading file p) := by
  simp only [parse, readings_eq, List.filterMap_map]
  rfl

theorem parse_faults_eq (source : String) : (parse file source).faults =
    (numbered 1 (dropMark source.toList)).filterMap fun p => fault? (reading file p) := by
  simp only [parse, readings_eq, List.filterMap_map]
  rfl

theorem numbered_joined {s t : String} (h : t.toList.head? ≠ some '\ufeff') :
    numbered 1 (dropMark (s ++ "\n" ++ t).toList) = numbered 1 (dropMark s.toList) ++
      (numbered 1 (dropMark t.toList)).map fun p => (p.1, p.2 + (s.toList.count '\n' + 1)) := by
  have hjoined : (s ++ "\n" ++ t).toList = s.toList ++ '\n' :: t.toList := by simp
  rw [hjoined, dropMark_append_break, numbered_append_break, count_dropMark, numbered_add,
    dropMark_of_unmarked h]

end Readings

theorem readLine_line {line : List Char} {n : Nat} {i : Instruction}
    (h : readLine line n = .ok i) : i.line = n := by
  unfold readLine at h
  split at h
  · split at h
    · obtain rfl := Except.ok.inj h
      rfl
    · cases h
  · split at h
    · obtain ⟨_, -, h⟩ := bind_eq_ok.mp h
      obtain rfl := Except.ok.inj h
      rfl
    · cases h

/-- Whether line `i` of a text, counted from 0, is neither blank nor a comment. -/
def counts (source : String) (i : Nat) : Bool :=
  (Text.lines (dropMark source.toList))[i]?.any fun line => !isIgnored (Text.trim line)

/-- Each line that is read gives an instruction or a fault, with its number. -/
theorem countP_readings (file : String) (ps : List (List Char × Nat)) (n : Nat) :
    (ps.filterMap fun p => instruction? (reading file p)).countP (·.line = n) +
      (ps.filterMap fun p => fault? (reading file p)).countP (·.location = some ⟨file, n⟩) =
        ps.countP (·.2 = n) := by
  induction ps with
  | nil => rfl
  | cons p ps ih =>
    cases hread : readLine p.1 p.2 with
    | ok i =>
      have hline := readLine_line hread
      simp [reading, hread, instruction?, fault?, List.countP_cons, hline, ← ih]
      omega
    | error cause =>
      simp [reading, hread, instruction?, fault?, List.countP_cons, ← ih]
      omega

theorem countP_numbered (first i : Nat) (lines : List (List Char)) :
    (((lines.map Text.trim).zipIdx first).filter fun p => !isIgnored p.1).countP
        (·.2 = first + i) =
      (lines[i]?.any fun line => !isIgnored (Text.trim line)).toNat := by
  induction lines generalizing first i with
  | nil => rfl
  | cons line lines ih =>
    rw [List.map_cons, List.zipIdx_cons, List.countP_filter, List.countP_cons, ← List.countP_filter]
    cases i with
    | zero =>
      have hlater : (((lines.map Text.trim).zipIdx (first + 1)).filter fun p =>
          !isIgnored p.1).countP (·.2 = first + 0) = 0 := by
        refine List.countP_eq_zero.mpr fun p hp => ?_
        have hle := List.le_snd_of_mem_zipIdx (List.mem_filter.mp hp).1
        simp only [decide_eq_true_eq]
        omega
      rw [hlater]
      cases hignored : isIgnored (Text.trim line) <;> simp [hignored]
    | succ i =>
      have hnumber : first + 1 + i = first + (i + 1) := by omega
      have hrest := ih (first + 1) i
      rw [hnumber] at hrest
      rw [hrest]
      simp

/-- What is read of a text is what is read of its lines, one by one: of the first lines what they
give alone, and of the lines behind them what these give alone, so many lines further down. Every
line that is neither blank nor a comment gives one instruction or one fault, at its number. A
carriage return before each line feed changes nothing. -/
theorem parse_line_local (file : String) :
    (∀ s t : String, t.toList.head? ≠ some '\ufeff' →
      let first := parse file s
      let second := parse file t
      let joined := parse file (s ++ "\n" ++ t)
      let below := s.toList.count '\n' + 1
      let instructions :=
        first.script.instructions ++ second.script.instructions.map (·.moved below)
      joined.script = ⟨file, instructions⟩ ∧
        joined.faults = first.faults ++ second.faults.map (·.moved below) ∧
        ∀ name n, (name, n) ∈ joined.script.labels ↔ IsFirstMarker instructions name n) ∧
    (∀ source i,
      (parse file source).script.instructions.countP (·.line = i + 1) +
        (parse file source).faults.countP (·.location = some ⟨file, i + 1⟩) =
          (counts source i).toNat) ∧
    ∀ source, parse file (Text.onChars Text.withReturns source) = parse file source := by
  refine ⟨fun s t hmark => ?_, fun source i => ?_, fun source => ?_⟩
  · intro first second joined below instructions
    have hscript : joined.script.instructions = instructions := by
      simp only [joined, instructions, first, second, below, parse_instructions_eq,
        numbered_joined hmark, List.filterMap_append, List.filterMap_map, Function.comp_def,
        instruction?_reading_add, List.map_filterMap]
    have hfaults : joined.faults = first.faults ++ second.faults.map (·.moved below) := by
      simp only [joined, first, second, below, parse_faults_eq, numbered_joined hmark,
        List.filterMap_append, List.filterMap_map, Function.comp_def, fault?_reading_add,
        List.map_filterMap]
    refine ⟨congrArg (Script.mk file) hscript, hfaults, fun name n => ?_⟩
    rw [mem_labels_iff, hscript]
  · rw [parse_instructions_eq, parse_faults_eq, countP_readings, Nat.add_comm i 1, numbered]
    exact countP_numbered 1 i _
  · have hreadings : readings file (Text.onChars Text.withReturns source).toList =
        readings file source.toList := by
      rw [readings_eq, readings_eq, Text.onChars, String.toList_ofList, dropMark_withReturns,
        numbered_withReturns]
    simp only [parse, hreadings]

end Script

namespace Rehearsal

/-- Begins with a byte order mark, and ends with a carriage return that is not yet part of a line
ending. -/
def prologue : String := "\ufeff@Gate\n???\r"

def epilogue : String := "// the gate once more\n@gate:\n!!!\nReturn"

theorem prologue_joined : epilogue.toList.head? ≠ some '\ufeff' ∧
    (Script.parse "a" (prologue ++ "\n" ++ epilogue)).script.instructions.map Instruction.line =
      [1, 4, 6] ∧
    (Script.parse "a" (prologue ++ "\n" ++ epilogue)).faults.map Fault.location =
      [some ⟨"a", 2⟩, some ⟨"a", 5⟩] ∧
    ("@gate:", 0) ∈ (Script.parse "a" (prologue ++ "\n" ++ epilogue)).script.labels := by
  have hmark : epilogue.toList.head? ≠ some '\ufeff' := by decide
  obtain ⟨hscript, hfaults, hlabels⟩ := (Script.parse_line_local "a").1 prologue epilogue hmark
  refine ⟨hmark, ?_, ?_, (hlabels "@gate:" 0).mpr ⟨⟨"@Gate", 1, by decide +kernel⟩, by simp⟩⟩
  · rw [hscript]
    decide +kernel
  · rw [hfaults]
    decide +kernel

end Rehearsal

end Cutscene
