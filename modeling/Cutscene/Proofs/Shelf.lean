import Cutscene.Check
import Cutscene.Proofs.Complaints
import Cutscene.Proofs.Finding

/-! Shelves of checked scripts. The name under which a text is read has no part in what is read, so
what a check finds on a shelf holds of the scripts that a loader or a cache makes of the same texts.
A cache and a chain are within a shelf if all their scripts are made of its texts. -/

namespace Cutscene

namespace Script

variable (file source : String)

theorem parse_instructions : (parse file source).script.instructions =
    (numbered 1 (dropMark source.toList)).filterMap fun p => (readLine p.1 p.2).toOption := by
  simp only [parse, readings, List.filterMap_map]
  congr 1
  funext p
  cases h : readLine p.1 p.2 <;> simp [h, instruction?, Except.toOption]

theorem parse_faults_eq_nil_iff : (parse file source).faults = [] ↔
    ∀ p ∈ numbered 1 (dropMark source.toList), (readLine p.1 p.2).toBool = true := by
  simp only [parse, readings, List.filterMap_map, List.filterMap_eq_nil_iff]
  refine forall₂_congr fun p _ => ?_
  cases h : readLine p.1 p.2 <;> simp [h, fault?, Except.toBool]

end Script

namespace Shelf

def HasText (shelf : Shelf) (source : String) : Prop := ∃ path, (path, source) ∈ shelf

/-- The script is made of one of the texts, under whatever name it was read. -/
def HasScript (shelf : Shelf) (script : Script) : Prop :=
  ∃ file source, shelf.HasText source ∧ script = (Script.parse file source).script

theorem HasText.parse {shelf : Shelf} {source : String} (h : shelf.HasText source)
    (file : String) : shelf.HasScript (Script.parse file source).script :=
  ⟨file, source, h, rfl⟩

variable {table : CommandTable} {shelf : Shelf} {script : Script} {source : String}

theorem faults_of_clean {path : String} (hclean : (Check.scripts table shelf).isClean = true)
    (h : (path, source) ∈ shelf) : Check.faults table path source = [] := by
  simp only [Check.Report.isClean, Check.scripts, List.isEmpty_iff, List.flatMap_eq_nil_iff]
    at hclean
  exact hclean (path, source) h

theorem parse_faults_of_clean (hclean : (Check.scripts table shelf).isClean = true)
    (h : shelf.HasText source) (file : String) : (Script.parse file source).faults = [] := by
  obtain ⟨path, hpath⟩ := h
  have hfaults := (List.append_eq_nil_iff.mp (faults_of_clean hclean hpath)).1
  rw [Script.parse_faults_eq_nil_iff] at hfaults ⊢
  exact hfaults

theorem HasScript.resolves (h : shelf.HasScript script)
    (hclean : (Check.scripts table shelf).isClean = true) {call : Call}
    (hcall : .call call ∈ script.instructions) :
    ∃ c, table.resolve call = .ok c := by
  obtain ⟨file, source, ⟨path, hpath⟩, rfl⟩ := h
  have hfaults := (List.append_eq_nil_iff.mp (faults_of_clean hclean hpath)).2
  rw [Script.parse_instructions] at hcall hfaults
  have hnone := List.filterMap_eq_nil_iff.mp hfaults _ hcall
  cases hresolve : table.resolve call with
  | ok c => exact ⟨c, rfl⟩
  | error cause => simp [Check.fault?, CommandTable.check, hresolve] at hnone

end Shelf

namespace Cache

/-- A cache that reads from a shelf, and whose scripts are all from there. Its loader may refuse
any path, but not for what a check is there to find. -/
structure Within (shelf : Shelf) (c : Cache) : Prop where
  reads : ∀ path source, c.read path = .ok source → shelf.HasText source
  refuses : ∀ path, Spares (c.read path)
  scripts : ∀ path entry, c.scripts.get? path = some entry → shelf.HasScript entry.script
  taken : c.faults = []

/-- What comes of a search in a cache that is within a shelf. -/
structure Yields (shelf : Shelf) (c : Cache) (found : Except Fault Cached) : Prop where
  within : c.Within shelf
  spares : Spares found
  fromShelf : ∀ entry, found = .ok entry → shelf.HasScript entry.script

variable {table : CommandTable} {shelf : Shelf} {c : Cache}

theorem within_read_shelf (shelf : Shelf) : Within shelf { read := shelf.read } where
  reads path source hread := by
    change shelf.read path = .ok source at hread
    unfold Shelf.read at hread
    split at hread
    · next found hfound =>
      obtain rfl := Except.ok.inj hread
      exact ⟨path, Dict.mem_of_get? hfound⟩
    · cases hread
  refuses path := by
    change Spares (shelf.read path)
    unfold Shelf.read
    split
    · exact Spares.ok _
    · exact Spares.fail.mpr rfl
  scripts path entry h := by cases h
  taken := rfl

theorem Within.asked (h : c.Within shelf) (path : String) :
    Within shelf { c with reads := c.reads.push path } := { h with }

theorem Within.put (h : c.Within shelf) (path : String) {script : Script}
    (hscript : shelf.HasScript script) : (c.put path script).1.Within shelf := by
  refine { h with scripts := fun path' entry hentry => ?_ }
  simp only [Cache.put, Dict.get?_insert] at hentry
  split at hentry
  · obtain rfl := Option.some.inj hentry
    exact hscript
  · exact h.scripts path' entry hentry

theorem Within.load (h : c.Within shelf)
    (hclean : (Check.scripts table shelf).isClean = true) (path : String) :
    (c.load path).1.Yields shelf (c.load path).2 := by
  unfold Cache.load
  dsimp only
  split
  · next entry hentry =>
    exact ⟨h, Spares.ok entry, fun _ hok => Except.ok.inj hok ▸ h.scripts _ entry hentry⟩
  · split
    · next f hrefused =>
      have hspares : f.cause.isChecked = false := h.refuses _ f hrefused
      exact ⟨h.asked _, by simpa [Spares] using hspares, by simp⟩
    · next source hread =>
      have htext : shelf.HasText source := h.reads _ source hread
      have hscript := Shelf.HasText.parse htext (ScriptPath.normalize path)
      -- the same text has passed the check, so the cache keeps no faults of it
      rw [Shelf.parse_faults_of_clean hclean htext, List.append_nil]
      exact ⟨(h.asked _).put _ hscript, Spares.ok _, fun _ hok => Except.ok.inj hok ▸ hscript⟩

theorem Within.loadFirst (h : c.Within shelf)
    (hclean : (Check.scripts table shelf).isClean = true) (paths : List String) :
    (c.loadFirst paths).1.Yields shelf (c.loadFirst paths).2 := by
  obtain ⟨hwithin, hspares, hscript⟩ := loadFirst_induct
    (Q := fun found => Spares found ∧ ∀ entry, found = .ok entry → shelf.HasScript entry.script) h
    paths
    (fun c path h =>
      have hload := h.load hclean path
      ⟨hload.within, hload.spares, hload.fromShelf⟩)
    fun paths => ⟨by simp [Spares, Cause.isChecked], nofun⟩
  exact ⟨hwithin, hspares, hscript⟩

end Cache

namespace Chain

/-- A chain that runs a script of a shelf, as do all its callers. -/
structure Within (shelf : Shelf) (c : Chain) : Prop where
  runs : ∀ script, c.script? = some script → shelf.HasScript script
  callers : ∀ p ∈ c.callers, shelf.HasScript p.script

variable {shelf : Shelf} {c c' : Chain}

theorem within_empty (shelf : Shelf) : Within shelf {} := ⟨by simp, by simp⟩

theorem Within.stands (h : c.Within shelf) {p : Position} (hp : c.position = some p) :
    shelf.HasScript p.script :=
  h.runs p.script (position_eq_some.mp hp).1

theorem Within.relined (h : c.Within shelf) (line : Nat) : Within shelf { c with line } :=
  ⟨h.runs, h.callers⟩

theorem Within.advance (h : c.Within shelf) : c.advance.Within shelf := h.relined _

theorem Within.countVisit (h : c.Within shelf) (label : String) :
    (c.countVisit label).Within shelf :=
  ⟨h.runs, h.callers⟩

theorem Within.enter (h : c.Within shelf) {script : Script} (hscript : shelf.HasScript script) :
    (c.enter script).Within shelf := by
  refine ⟨fun p hp => Option.some.inj hp ▸ hscript, fun p hp => ?_⟩
  cases hposition : c.position with
  | none => exact h.callers p (callers_enter_first hposition script ▸ hp)
  | some q =>
    rcases List.mem_cons.mp (callers_enter hposition script ▸ hp) with rfl | hp
    · exact h.stands hposition
    · exact h.callers p hp

theorem Within.leave (h : c.Within shelf) (hleave : c.leave? = some c') : c'.Within shelf := by
  obtain ⟨caller, callers, hc, rfl⟩ := leave?_eq_some.mp hleave
  have hcallers : ∀ p ∈ caller :: callers, shelf.HasScript p.script := hc ▸ h.callers
  exact ⟨fun p hp => Option.some.inj hp ▸ hcallers caller List.mem_cons_self,
    fun p hp => hcallers p (List.mem_cons_of_mem _ hp)⟩

theorem Within.finish (h : c.Within shelf) : c.finish.Within shelf := by
  refine ⟨?_, h.callers⟩
  rintro p ⟨⟩

theorem Within.goBack (h : c.Within shelf) : c.goBack.Within shelf := by
  unfold Chain.goBack
  cases hleave : c.leave? with
  | some c' => exact h.leave hleave
  | none => exact h.relined _

end Chain

end Cutscene
