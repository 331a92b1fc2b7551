import Cutscene.Wait.Json
import Mathlib.Data.List.Induction

/-! Records of waits. Of the fields that a record is given under one name it keeps the last, and a
movement has a field under the name of the tag. So a wait for a movement is not told by its record,
which is that of the movement alone; every other wait is, and is read back as it was. -/

namespace Cutscene

namespace Json

theorem find?_put_self (done : List (String × Json)) (f : String × Json) :
    (overwrite.put done f).find? (·.1 == f.1) = some f := by
  unfold overwrite.put
  split
  · next hthere =>
    -- the field stands where the first one of its name stood
    induction done with
    | nil => cases hthere
    | cons g done ih =>
      rw [List.map_cons, List.find?_cons]
      by_cases hhere : g.1 = f.1
      · simp only [hhere, beq_self_eq_true, if_true]
      · have hlater : done.any (·.1 == f.1) = true := by simpa [hhere] using hthere
        simp only [beq_false_of_ne hhere, Bool.false_eq_true, if_false, ih hlater]
  · next habsent =>
    have hnone : done.find? (·.1 == f.1) = none :=
      List.find?_eq_none.mpr fun g hg hname => habsent (List.any_eq_true.mpr ⟨g, hg, hname⟩)
    simp [List.find?_append, hnone]

theorem find?_put_of_ne (done : List (String × Json)) {f : String × Json} {name : String}
    (hname : f.1 ≠ name) :
    (overwrite.put done f).find? (·.1 == name) = done.find? (·.1 == name) := by
  unfold overwrite.put
  split
  · next hthere =>
    clear hthere
    induction done with
    | nil => rfl
    | cons g done ih =>
      rw [List.map_cons, List.find?_cons, List.find?_cons, ih]
      by_cases hhere : g.1 = f.1
      · simp only [hhere, beq_self_eq_true, if_true, beq_false_of_ne hname]
      · simp only [beq_false_of_ne hhere, Bool.false_eq_true, if_false]
  · simp [hname]

/-- A record has the last of the fields that it was given under a name. -/
theorem field?_overwrite (fields : List (String × Json)) (name : String) :
    (overwrite fields).field? name = (fields.reverse.find? (·.1 == name)).map Prod.snd := by
  rw [overwrite, field?]
  congr 1
  induction fields using List.reverseRecOn with
  | nil => rfl
  | append_singleton fields f ih =>
    rw [List.foldl_append, List.foldl_cons, List.foldl_nil, List.reverse_concat, List.find?_cons]
    by_cases hname : f.1 = name
    · subst hname
      rw [find?_put_self, beq_self_eq_true]
    · rw [find?_put_of_ne _ hname, ih, beq_false_of_ne hname]

/-- A record that is left without its tag has none under this name again. -/
theorem kindless_of_tagged? {fields : List (String × Json)} {tag : String} {rest : Json}
    (h : (record fields).tagged? = some (tag, rest)) :
    ∃ left, rest = record left ∧ (record left).field? "kind" = none := by
  obtain ⟨value, -, h⟩ := Option.bind_eq_some_iff.mp h
  obtain ⟨text, -, h⟩ := Option.bind_eq_some_iff.mp h
  obtain ⟨-, rfl⟩ := Prod.mk.inj (Option.some.inj h)
  refine ⟨_, rfl, ?_⟩
  simp [field?]

theorem word?_ofWord (n : Int32) : (ofWord n).word? = some n := by
  have hfits : Interval.word32.contains n.toInt = true := by
    rw [Interval.contains_iff]
    exact ⟨n.le_toInt, Int.le_of_lt_add_one n.toInt_lt⟩
  simp [ofWord, word?, int?, hfits]

end Json

theorem TalkLine.ofJson?_json (l : TalkLine) : ofJson? l.json = some l := by
  simp [ofJson?, json, Json.values?, Json.field?, Json.word?_ofWord]

theorem TalkLine.mapM_ofJson? (lines : List TalkLine) :
    (lines.map json).mapM ofJson? = some lines := by
  induction lines with
  | nil => rfl
  | cons l lines ih =>
    rw [List.map_cons, List.mapM_cons, ofJson?_json, ih]
    rfl

theorem Target.ofJson?_json (t : Target) : ofJson? t.json = some t := by
  cases t with
  | tile x y =>
    simp [ofJson?, json, Json.tagged?, Json.values?, Json.field?, Json.text?, Json.word?_ofWord]
  | direction d n =>
    simp [ofJson?, json, Json.tagged?, Json.values?, Json.field?, Json.text?, Json.word?_ofWord]

theorem Gait.tag_ne_movement (g : Gait) : g.tag ≠ "movement" := by
  cases g <;> decide

namespace Movement

theorem ofJson?_json (m : Movement) : ofJson? m.json = some m := by
  simp [ofJson?, json, fields, Json.values?, Json.field?, Gait.ofJson?, Gait.ofTag?_tag,
    Target.ofJson?_json]

/-- What has lost its kind is no movement. -/
theorem ofJson?_of_kindless {fields : List (String × Json)}
    (h : (Json.record fields).field? "kind" = none) : ofJson? (.record fields) = none := by
  have hvalues : (Json.record fields).values? ["kind", "actor", "target"] =
      some [.null, ((Json.record fields).field? "actor").getD .null,
        ((Json.record fields).field? "target").getD .null] := by
    simp only [Json.values?, List.map_cons, List.map_nil, h, Option.getD_none]
  simp only [ofJson?, hvalues, Option.bind_eq_bind, Option.bind_some]
  split
  · next hparts =>
    obtain ⟨rfl, -⟩ := List.cons.inj hparts
    rfl
  · rfl

end Movement

namespace Wait

/-- A clock that has a time left which fits 64 bits, or no clock. -/
def Fits : Wait → Prop
  | .timer remaining => Interval.word64.contains remaining = true
  | _ => True

/-- The tag of a movement is written over by the gait, field by field. -/
theorem json_movement (m : Movement) : json (.activity (.movement m)) = m.json := by
  simp [json, fields, name, Json.overwrite, Json.overwrite.put, Movement.json, Movement.fields]

theorem field?_kind {w : Wait} (hstill : ∀ m, w ≠ .activity (.movement m)) :
    w.json.field? "kind" = some (.text w.name) := by
  rw [json, Json.field?_overwrite]
  cases w with
  | activity a =>
    cases a with
    | movement m => exact absurd rfl (hstill m)
    | _ => simp [fields]
  | _ => simp [fields]

/-- The record of anything but a movement has its tag in front. -/
theorem json_eq {w : Wait} (hstill : ∀ m, w ≠ .activity (.movement m)) :
    w.json = .record (("kind", .text w.name) :: w.fields) := by
  cases w with
  | activity a =>
    cases a with
    | movement m => exact absurd rfl (hstill m)
    | _ => simp [json, fields, Json.overwrite, Json.overwrite.put]
  | _ => simp [json, fields, Json.overwrite, Json.overwrite.put]

theorem ofJson?_json {w : Wait} (hfits : w.Fits) (hstill : ∀ m, w ≠ .activity (.movement m)) :
    ofJson? w.json = some w := by
  rw [json_eq hstill]
  cases w with
  | timer remaining =>
    have hwithin : Interval.word64.contains remaining = true := hfits
    simp [ofJson?, Json.tagged?, Json.values?, Json.field?, fields, name, Json.text?, hwithin]
  | talk remaining =>
    simp [ofJson?, Json.tagged?, Json.values?, Json.field?, fields, name, Json.text?,
      -List.mapM_map, TalkLine.mapM_ofJson?]
  | activity a =>
    cases a with
    | movement m => exact absurd rfl (hstill m)
    | _ =>
      simp [ofJson?, Json.tagged?, Json.values?, Json.field?, fields, name, Json.text?,
        Json.isBare]
  | _ => simp [ofJson?, Json.tagged?, Json.values?, Json.field?, fields, name, Json.text?]

/-- No gait is the tag of a wait. -/
theorem ofJson?_movement (m : Movement) : ofJson? m.json = none := by
  obtain ⟨gait, actor, target⟩ := m
  cases gait <;> rfl

/-- No record is read as a wait for a movement: the movement would have to have a kind besides the
tag. -/
theorem ofJson?_record_ne_movement (fields : List (String × Json)) (m : Movement) :
    ofJson? (.record fields) ≠ some (.activity (.movement m)) := by
  intro h
  obtain ⟨⟨tag, rest⟩, htagged, h⟩ := Option.bind_eq_some_iff.mp h
  obtain ⟨left, rfl, hkindless⟩ := Json.kindless_of_tagged? htagged
  dsimp only at h
  -- only under its own tag a movement is looked for, and what is left has no kind to read
  split at h
  · obtain ⟨values, -, h⟩ := Option.bind_eq_some_iff.mp h
    split at h
    · split at h <;> cases h
    · cases h
  · obtain ⟨values, -, h⟩ := Option.bind_eq_some_iff.mp h
    split at h <;> cases h
  · obtain ⟨values, -, h⟩ := Option.bind_eq_some_iff.mp h
    split at h
    · obtain ⟨lines, -, h⟩ := Option.bind_eq_some_iff.mp h
      cases h
    · cases h
  · rw [Movement.ofJson?_of_kindless hkindless] at h
    cases h
  · cases h
  · cases h
  · obtain ⟨values, -, h⟩ := Option.bind_eq_some_iff.mp h
    split at h <;> cases h
  · cases h
  · cases h
  · cases h

/-- From a list, with the tag in front, a wait for a movement is read as any other. -/
theorem ofJson?_list_movement (m : Movement) :
    ofJson? (.list [.text "movement", .text m.gait.tag, .text m.actor, m.target.json]) =
      some (.activity (.movement m)) := by
  simp [ofJson?, Json.tagged?, Json.text?, Movement.ofJson?, Json.values?, Gait.ofJson?,
    Gait.ofTag?_tag, Target.ofJson?_json]

/-- The record of a wait for anything but a movement tells what kind of wait it is and is read back
as the wait that it was. The record of a movement tells how the actor moves instead: it is read back
as the movement, but neither it nor any other record is read as a wait for one, while a list with
the tag in front is. -/
theorem record_read_back {w : Wait} (hfits : w.Fits) :
    ((∀ m, w ≠ .activity (.movement m)) →
      w.json.field? "kind" = some (.text w.name) ∧ ofJson? w.json = some w) ∧
    ∀ m, w = .activity (.movement m) →
      w.json.field? "kind" = some (.text m.gait.tag) ∧ m.gait.tag ≠ w.name ∧
        Movement.ofJson? w.json = some m ∧
        ofJson? w.json = none ∧
        (∀ fields, ofJson? (.record fields) ≠ some w) ∧
        ofJson? (.list [.text w.name, .text m.gait.tag, .text m.actor, m.target.json]) =
          some w := by
  refine ⟨fun hstill => ⟨field?_kind hstill, ofJson?_json hfits hstill⟩, ?_⟩
  rintro m rfl
  rw [json_movement]
  exact ⟨rfl, m.gait.tag_ne_movement, m.ofJson?_json, ofJson?_movement m,
    fun fields => ofJson?_record_ne_movement fields m, ofJson?_list_movement m⟩

end Wait

namespace Rehearsal

/-- The guard walks to a tile. -/
def patrol : Movement := ⟨.npcWalk, "Guard", .tile 3 (-4)⟩

theorem patrol_not_read_back :
    (Wait.activity (.movement patrol)).json.field? "kind" = some (.text "npcGoto") ∧
      Wait.ofJson? (Wait.activity (.movement patrol)).json = none :=
  ⟨rfl, by decide⟩

/-- What the patrol would be read from, and a clock that leaves its time out. -/
example : (Wait.ofJson? (.list [.text "movement", .text "npcGoto", .text "Guard",
      .list [.text "tile", .int 3, .int (-4)]]) = some (.activity (.movement patrol))) ∧
    Wait.ofJson? (.list [.text "timer", .int 5]) = some (.timer 5) ∧
    Wait.ofJson? (.record [("remaining_ms", .int 5), ("kind", .text "timer")]) =
      some (.timer 5) ∧
    Wait.ofJson? (.record [("kind", .text "input")]) = some .dialog ∧
    Wait.ofJson? (.list [.text "fadeIn", .null]) = none ∧
    Wait.ofJson? (.record [("kind", .text "timer")]) = none := by decide

def chatter : List TalkLine := [⟨"Halt!", 3⟩, ⟨"", -2147483648⟩]

theorem clock_chatter_and_patrol_told :
    (Wait.Fits (.timer (-9223372036854775808)) ∧ Wait.Fits (.talk chatter) ∧
      Wait.Fits (.activity (.movement patrol))) ∧
    Wait.ofJson? (Wait.timer (-9223372036854775808)).json =
      some (.timer (-9223372036854775808)) ∧
    Wait.ofJson? (Wait.talk chatter).json = some (.talk chatter) ∧
    Movement.ofJson? (Wait.activity (.movement patrol)).json = some patrol := by
  have htime : Wait.Fits (.timer (-9223372036854775808)) := by
    unfold Wait.Fits
    decide
  refine ⟨⟨htime, trivial, trivial⟩, ?_, ?_, ?_⟩
  · exact ((Wait.record_read_back htime).1 (by simp)).2
  · exact ((Wait.record_read_back (w := .talk chatter) trivial).1 (by simp)).2
  · obtain ⟨-, -, hread, -⟩ := (Wait.record_read_back (w := .activity (.movement patrol)) trivial).2
      patrol rfl
    exact hread

end Rehearsal

end Cutscene
