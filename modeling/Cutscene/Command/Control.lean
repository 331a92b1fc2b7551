import Cutscene.Command

/-! Commands on the course of a chain and on its variables: jumps, calls, pauses and arithmetic. -/

namespace Cutscene.Command

def goto : Handler where
  routine := do .jumpTo (← .text 0)
  plan v := do return .jump (← v.text 0)
  follows := .read fun label => .act (.jump label)

/-- The label stands as second parameter or behind the condition. -/
def branch : Handler where
  routine := do
    let label ← .read View.branchTarget
    if Text.isBlankText label then .fail { cause := .targetMissing }
    else if ← .read (·.condition 0) then .jumpTo label
    else .proceed
  plan v := do
    let label ← v.branchTarget
    if Text.isBlankText label then View.fail .targetMissing
    else if ← v.condition 0 then return .jump label
    else return .proceed
  follows := .read fun label => by
    by_cases hblank : Text.isBlankText label = true
    · simp only [hblank, if_true]
      exact .fail _
    · simp only [hblank]
      refine .read fun holds => ?_
      cases holds with
      | true => exact .act (.jump label)
      | false => exact .act .proceed

def giveBack : Handler where
  routine := .goBack
  plan _ := return .goBack
  follows := .act .goBack

def runScript : Handler where
  routine := do .callScript (← .text 0)
  plan v := do return .run (← v.text 0)
  follows := .read fun target => .act (.run target)

/-- A time that is not positive does not wait. -/
def sleep : Handler where
  routine := do
    let time ← .integer 0
    if time ≤ 0 then .proceed else .suspend (.timer time.toInt)
  plan v := do
    let time ← v.integer 0
    return if time ≤ 0 then .proceed else .park (.timer time.toInt)
  follows := .read fun time => by
    by_cases hover : time ≤ 0
    · simp only [hover, if_true]
      exact .act .proceed
    · simp only [hover, if_false]
      exact .act (.park _)

def assign : Handler where
  routine := do
    let name ← .target 0
    .setVariable name (← .integer 1) .proceed
  plan v := do
    let name ← v.target 0
    return .assign name (← v.integer 1)
  follows := .read fun name => .read fun value => .act (.assign name value)

/-- Gives a variable its value combined with a parameter's. -/
def update (combine : Int32 → Int32 → Int32) : Handler where
  routine := do
    let name ← .target 0
    let value ← .value name
    .setVariable name (combine value (← .integer 1)) .proceed
  plan v := do
    let name ← v.target 0
    let value ← .ok (v.value name)
    return .assign name (combine value (← v.integer 1))
  follows := .read fun name => .read fun _ => .read fun _ => .act (.assign name _)

def draw : Handler where
  routine := do
    let name ← .target 0
    let a ← .integer 1
    .random a (← .integer 2) fun value => .setVariable name value .proceed
  plan v := do
    let name ← v.target 0
    let a ← v.integer 1
    return .draw name a (← v.integer 2)
  follows := .read fun name => .read fun a => .read fun b => .act (.draw name a b)

def control : List Command := [
  ⟨"Goto", .exactly 1, goto⟩,
  ⟨"If", .between 1 2, branch⟩,
  ⟨"Return", .exactly 0, giveBack⟩,
  ⟨"RunScript", .exactly 1, runScript⟩,
  ⟨"Sleep", .exactly 1, sleep⟩,
  ⟨"Assign", .exactly 2, assign⟩,
  ⟨"Add", .exactly 2, update (· + ·)⟩,
  ⟨"Sub", .exactly 2, update (· - ·)⟩,
  ⟨"GetRandNum", .exactly 3, draw⟩]

end Cutscene.Command
