import Cutscene.Cache
import Cutscene.Proofs.Result

/-! What a cache finds. A search comes to the same scripts whether the cache has them or reads them,
and what it reads for one search makes no difference to any other. -/

namespace Cutscene

namespace Cache

/-- The script at a path in normal form: the one that is held, or else what the loader has. -/
def finds (c : Cache) (key : String) : Except Fault Script :=
  match c.scripts.get? key with
  | some entry => .ok entry.script
  | none => (c.read key).map fun source => (Script.parse key source).script

/-- The first script found, if a search does not fail on the way. -/
def search (find : String → Except Fault Script) :
    List String → Option (Except Fault Script)
  | [] => none
  | path :: rest => match find (ScriptPath.normalize path) with
    | .ok script => some (.ok script)
    | .error f => if isNotFound f then search find rest else some (.error f)

theorem finds_put (c : Cache) {key : String} {script : Script} (h : c.finds key = .ok script) :
    (c.put key script).1.finds = c.finds := by
  funext key'
  by_cases hkey : key = key'
  · subst hkey
    rw [h]
    simp [finds, put, Dict.get?_insert]
  · simp [finds, put, Dict.get?_insert, hkey]

theorem load_finds (c : Cache) (path : String) :
    (c.load path).1.finds = c.finds ∧
      (c.load path).2.map Cached.script = c.finds (ScriptPath.normalize path) := by
  unfold load
  generalize ScriptPath.normalize path = key
  cases hheld : c.scripts.get? key with
  | some entry => simp [finds, hheld]
  | none =>
    cases hread : c.read key with
    | error f =>
      simp only [hheld, hread]
      exact ⟨rfl, by simp [finds, hheld, hread]⟩
    | ok source =>
      have hfound : c.finds key = .ok (Script.parse key source).script := by
        simp [finds, hheld, hread]
      simp only [hheld, hread]
      exact ⟨finds_put _ hfound, hfound.symm⟩

/-- What every load keeps is kept by a search, and what every load comes to is what a search comes
to, if it is not that there is no script. -/
theorem loadFirst_induct {P : Cache → Prop} {Q : Except Fault Cached → Prop} {c : Cache} (h : P c)
    (paths : List String)
    (hload : ∀ c path, P c → P (c.load path).1 ∧ Q (c.load path).2)
    (hmissing : ∀ paths, Q (.error { cause := .noCandidate paths })) :
    P (c.loadFirst paths).1 ∧ Q (c.loadFirst paths).2 := by
  have hany : P (c.loadAny paths).1 ∧ ∀ found, (c.loadAny paths).2 = some found → Q found := by
    induction paths generalizing c with
    | nil => exact ⟨h, nofun⟩
    | cons path rest ih =>
      have hfirst := hload c path h
      rw [loadAny]
      generalize c.load path = loaded at hfirst
      obtain ⟨c', found⟩ := loaded
      cases found with
      | ok entry => exact ⟨hfirst.1, fun _ hfound => Option.some.inj hfound ▸ hfirst.2⟩
      | error f =>
        simp only
        split
        · exact ih hfirst.1
        · exact ⟨hfirst.1, fun _ hfound => Option.some.inj hfound ▸ hfirst.2⟩
  unfold loadFirst
  generalize c.loadAny paths = loaded at hany
  obtain ⟨c', found⟩ := loaded
  cases found with
  | none => exact ⟨hany.1, hmissing paths⟩
  | some found => exact ⟨hany.1, hany.2 found rfl⟩

theorem loadAny_finds (c : Cache) (paths : List String) :
    (c.loadAny paths).1.finds = c.finds ∧
      (c.loadAny paths).2.map (·.map Cached.script) = search c.finds paths := by
  induction paths generalizing c with
  | nil => exact ⟨rfl, rfl⟩
  | cons path rest ih =>
    obtain ⟨hfinds, hfound⟩ := c.load_finds path
    simp only [loadAny, search, ← hfound]
    generalize c.load path = loaded at hfinds
    obtain ⟨c', found⟩ := loaded
    cases found with
    | ok entry => exact ⟨hfinds, rfl⟩
    | error f =>
      by_cases hnot : isNotFound f = true
      · obtain ⟨hrest, hfirst⟩ := ih c'
        have hfinds : c'.finds = c.finds := hfinds
        simp only [hnot, if_true, error_map, hrest, hfirst, hfinds, and_self]
      · simp only [hnot, error_map]
        exact ⟨hfinds, rfl⟩

theorem loadFirst_finds (c : Cache) (paths : List String) :
    (c.loadFirst paths).1.finds = c.finds ∧
      (c.loadFirst paths).2.map Cached.script =
        (search c.finds paths).getD (.error { cause := .noCandidate paths }) := by
  obtain ⟨hfinds, hfound⟩ := c.loadAny_finds paths
  unfold loadFirst
  generalize c.loadAny paths = loaded at hfinds hfound
  obtain ⟨c', found⟩ := loaded
  rw [← hfound]
  cases found with
  | none => exact ⟨hfinds, rfl⟩
  | some found => exact ⟨hfinds, rfl⟩

end Cache

end Cutscene
