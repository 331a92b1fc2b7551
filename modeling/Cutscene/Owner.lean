/-! The character or thing that a script belongs to. -/

namespace Cutscene

inductive OwnerKind where
  | npc
  | object
  deriving DecidableEq, Repr

structure Owner where
  kind : OwnerKind
  id : String
  deriving DecidableEq, Repr

/-- A key that no two owners share. -/
def Owner.key (o : Owner) : String :=
  match o.kind with
  | .npc => "npc:" ++ o.id
  | .object => "obj:" ++ o.id

end Cutscene
