import Cutscene.Script

/-! Markers of a label. The label table of a script holds the first marker of each name, and what a
jump looks up is what stands there. -/

namespace Cutscene

/-- The first marker of a label stands at this place. -/
structure IsFirstMarker (is : List Instruction) (name : String) (n : Nat) : Prop where
  stands : ∃ literal line, is[n]? = some (.marker name literal line)
  first : ∀ m < n, ∀ literal line, is[m]? ≠ some (.marker name literal line)

namespace Instruction

variable {i : Instruction} {name : String}

theorem marks_iff : i.marks name = true ↔ ∃ literal line, i = .marker name literal line := by
  cases i with
  | call c => simp [marks]
  | marker name' literal line =>
    simp only [marks, decide_eq_true_eq, marker.injEq]
    constructor
    · rintro rfl
      exact ⟨literal, line, rfl, rfl, rfl⟩
    · rintro ⟨_, _, rfl, -, -⟩
      rfl

end Instruction

namespace Script

variable {s : Script} {name : String} {n : Nat}

theorem markerOf?_eq_some_iff :
    s.markerOf? name = some n ↔ IsFirstMarker s.instructions name n := by
  rw [markerOf?, List.findIdx?_eq_some_iff_getElem]
  constructor
  · rintro ⟨hn, hmarks, hbefore⟩
    refine ⟨?_, fun m hm literal line hmarker => ?_⟩
    · obtain ⟨literal, line, heq⟩ := Instruction.marks_iff.mp hmarks
      exact ⟨literal, line, by rw [List.getElem?_eq_getElem hn, heq]⟩
    · obtain ⟨hlt, heq⟩ := List.getElem?_eq_some_iff.mp hmarker
      exact hbefore m hm (Instruction.marks_iff.mpr ⟨literal, line, heq⟩)
  · rintro ⟨⟨literal, line, hmarker⟩, hfirst⟩
    obtain ⟨hn, heq⟩ := List.getElem?_eq_some_iff.mp hmarker
    refine ⟨hn, Instruction.marks_iff.mpr ⟨literal, line, heq⟩, fun m hm hmarks => ?_⟩
    obtain ⟨literal', line', heq'⟩ := Instruction.marks_iff.mp hmarks
    exact hfirst m hm literal' line' (by rw [List.getElem?_eq_getElem (by omega), heq'])

theorem markerOf?_eq_none_iff :
    s.markerOf? name = none ↔ ∀ i ∈ s.instructions, i.marks name = false :=
  List.findIdx?_eq_none_iff

/-- Where a marker stands, the first one of its name stands or has stood before. -/
theorem exists_markerOf? {literal : String} {line : Nat}
    (h : s.instructions[n]? = some (.marker name literal line)) :
    ∃ m ≤ n, s.markerOf? name = some m := by
  cases hfound : s.markerOf? name with
  | none =>
    have hunmarked := markerOf?_eq_none_iff.mp hfound _ (List.mem_of_getElem? h)
    simp [Instruction.marks] at hunmarked
  | some m =>
    have hfirst := (markerOf?_eq_some_iff.mp hfound).first
    exact ⟨m, Nat.le_of_not_lt fun hlater => hfirst n hlater literal line h, rfl⟩

/-- The label table pairs each label with its first marker, and holds nothing else. -/
theorem mem_labels_iff : (name, n) ∈ s.labels ↔ IsFirstMarker s.instructions name n := by
  rw [← markerOf?_eq_some_iff, labels, List.mem_filterMap]
  constructor
  · rintro ⟨⟨i, m⟩, -, hi⟩
    dsimp only at hi
    split at hi
    · next hmarker =>
      obtain ⟨rfl, rfl⟩ := Prod.mk.inj (Option.some.inj hi)
      simpa using (Bool.and_eq_true_iff.mp hmarker).2
    · cases hi
  · intro h
    obtain ⟨⟨literal, line, hmarker⟩, -⟩ := markerOf?_eq_some_iff.mp h
    refine ⟨(.marker name literal line, n), ?_, ?_⟩
    · simpa [List.mem_zipIdx_iff_getElem?] using hmarker
    · simp [Instruction.isMarker, Instruction.name, h]

end Script

end Cutscene
