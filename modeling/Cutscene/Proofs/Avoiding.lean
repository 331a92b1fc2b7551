import Cutscene.Command.Control
import Cutscene.Command.Scenery
import Cutscene.Proofs.Result

/-! What commands never ask for. A command is built from its parameters by few operations, so that
what it avoids can be read off its text. -/

namespace Cutscene

/-- A command that is refused or asks for nothing of a kind. -/
def Avoids (kind : Action → Bool) (r : Except Fault Action) : Prop :=
  ∀ action, r = .ok action → kind action = false

namespace Avoids

variable {α : Type} {kind : Action → Bool}

@[simp] theorem ok_iff {action : Action} : Avoids kind (.ok action) ↔ kind action = false := by
  simp [Avoids]

@[simp] theorem pure_iff {action : Action} : Avoids kind (pure action) ↔ kind action = false :=
  ok_iff

@[simp] theorem fail_iff (cause : Cause) : Avoids kind (View.fail cause) ↔ True := by
  refine iff_true_intro fun action h => ?_
  cases h

@[simp] theorem bind_iff {r : Except Fault α} {g : α → Except Fault Action} :
    Avoids kind (r >>= g) ↔ ∀ a, r = .ok a → Avoids kind (g a) := by
  cases r with
  | error f => simp [Avoids]
  | ok a => simp

@[simp] theorem map_iff {r : Except Fault α} {g : α → Action} :
    Avoids kind (g <$> r) ↔ ∀ a, r = .ok a → kind (g a) = false := by
  rw [map_eq_pure_bind, bind_iff]
  simp only [pure_iff]

@[simp] theorem ite_iff {p : Prop} [Decidable p] {r r' : Except Fault Action} :
    Avoids kind (if p then r else r') ↔ (p → Avoids kind r) ∧ (¬p → Avoids kind r') := by
  split <;> simp [*]

end Avoids

namespace Command

variable {kind : Action → Bool}

theorem branch_avoids (hjump : ∀ label, kind (.jump label) = false) (hgo : kind .proceed = false)
    (v : View) : Avoids kind (branch v) := by
  simp [branch, hjump, hgo]

theorem sleep_avoids (hgo : kind .proceed = false) (hpark : ∀ wait, kind (.park wait) = false)
    (v : View) : Avoids kind (sleep v) := by
  refine Avoids.bind_iff.mpr fun time _ => Avoids.pure_iff.mpr ?_
  split
  · exact hgo
  · exact hpark _

theorem deleteOwner_avoids (hdelete : ∀ id, kind (.perform (.deleteObject id) none) = false)
    (v : View) : Avoids kind (deleteOwner v) := by
  simp only [deleteOwner, ok_bind]
  split
  · exact Avoids.ok_iff.mpr (hdelete _)
  · exact (Avoids.fail_iff _).mpr trivial

theorem playSound_avoids
    (hplay : ∀ file place, kind (.perform (.playSound file place) none) = false) (v : View) :
    Avoids kind (playSound v) := by
  simp [playSound, hplay]

end Command

end Cutscene
