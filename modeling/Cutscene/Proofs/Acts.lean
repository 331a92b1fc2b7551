import Cutscene.Proofs.Acting

/-! What an action does, case by case: the engine after it, and its course or its fault. An action
that ends in a fault has changed nothing but what the cache asked of its loader. -/

namespace Cutscene

namespace Cache

variable {c c' : Cache} {path : String} {paths asked : List String} {f : Fault}

/-- The second cache has asked its loader for some more paths, and is otherwise the first one. -/
def Asks (c : Cache) (asked : List String) (c' : Cache) : Prop :=
  c' = { c with reads := c.reads ++ asked.toArray }

theorem Asks.reads (h : c.Asks asked c') : c'.reads.toList = c.reads.toList ++ asked := by
  rw [h, Array.toList_append]

theorem load_asks (h : c.load path = (c', .error f)) : c.Asks [ScriptPath.normalize path] c' := by
  unfold load at h
  dsimp only at h
  split at h
  · simp at h
  · split at h
    · simp only [Prod.mk.injEq] at h
      exact h.1.symm
    · simp at h

/-- A search that finds no script has asked the loader for its paths in order, and for all of them
unless something else than a missing script is in its way. -/
theorem loadAny_asks {found : Option (Except Fault Cached)} (h : c.loadAny paths = (c', found))
    (hnone : ∀ entry, found ≠ some (.ok entry)) :
    ∃ asked, c.Asks asked c' ∧ asked <+: paths.map ScriptPath.normalize ∧
      ((∀ f, found = some (.error f) → isNotFound f = true) →
        asked = paths.map ScriptPath.normalize) := by
  induction paths generalizing c with
  | nil =>
    rw [loadAny, Prod.mk.injEq] at h
    obtain ⟨rfl, -⟩ := h
    exact ⟨[], by simp [Asks], List.prefix_rfl, fun _ => rfl⟩
  | cons path rest ih =>
    cases hload : c.load path with
    | mk c₁ loaded =>
      cases loaded with
      | ok entry =>
        simp only [loadAny, hload, Prod.mk.injEq] at h
        exact absurd h.2.symm (hnone entry)
      | error f =>
        have hhere := load_asks hload
        simp only [loadAny, hload] at h
        split at h
        · obtain ⟨asked, hasked, hprefix, hall⟩ := ih h
          refine ⟨ScriptPath.normalize path :: asked, ?_, ?_, fun hfound => ?_⟩
          · rw [Asks] at hasked hhere ⊢
            rw [hasked, hhere]
            simp
          · exact (List.prefix_cons_inj _).mpr hprefix
          · rw [hall hfound, List.map_cons]
        · next hstop =>
          obtain ⟨rfl, rfl⟩ := Prod.mk.inj h
          refine ⟨_, hhere, (List.prefix_cons_inj _).mpr (List.nil_prefix), fun hfound => ?_⟩
          exact absurd (hfound f rfl) hstop

theorem loadFirst_asks (h : c.loadFirst paths = (c', .error f)) :
    ∃ asked, c.Asks asked c' ∧ asked <+: paths.map ScriptPath.normalize ∧
      (isNotFound f = true → asked = paths.map ScriptPath.normalize) := by
  unfold loadFirst at h
  split at h
  · next found hany =>
    obtain ⟨rfl, rfl⟩ := Prod.mk.inj h
    obtain ⟨asked, hasked, hprefix, hall⟩ := loadAny_asks hany (by simp)
    exact ⟨asked, hasked, hprefix, fun hnot => hall fun f' hf' => by
      rwa [← Except.error.inj (Option.some.inj hf')]⟩
  · next hany =>
    obtain ⟨rfl, -⟩ := Prod.mk.inj h
    obtain ⟨asked, hasked, hprefix, hall⟩ := loadAny_asks hany (by simp)
    exact ⟨asked, hasked, hprefix, fun _ => hall fun f' hf' => nomatch hf'⟩

theorem loadFirst_error (h : c.loadFirst paths = (c', .error f)) :
    ∃ reads, c' = { c with reads } := by
  obtain ⟨asked, hasked, -⟩ := loadFirst_asks h
  exact ⟨_, hasked⟩

end Cache

namespace Engine

variable {ω : Type} [World ω]

/-- The action that a call asks for, if its command is known and takes its parameters. -/
def Asks (e : Engine ω) (call : Call) (action : Action) : Prop :=
  ∃ command, e.table.resolve call = .ok command ∧ command.handler (e.view call) = .ok action

inductive Acts (e : Engine ω) : Action → Engine ω → Except Fault Course → Prop where
  | proceed : Acts e .proceed e (.ok .next)
  | perform {effect : Effect} {world : ω}
      (performed : World.perform e.scene.world effect = .ok world) :
      Acts e (.perform effect none) (e.withWorld world) (.ok .next)
  | performAndPark {effect : Effect} {wait : Wait} {world : ω}
      (performed : World.perform e.scene.world effect = .ok world) (free : e.chain.wait = none) :
      Acts e (.perform effect (some wait)) ((e.withWorld world).park wait) (.ok .parked)
  | park {wait : Wait} (free : e.chain.wait = none) :
      Acts e (.park wait) (e.park wait) (.ok .parked)
  | assign {name : String} {value : Int32} :
      Acts e (.assign name value) (e.assign name value) (.ok .next)
  | draw {name : String} {a b : Int32} : Acts e (.draw name a b) (e.draw name a b) (.ok .next)
  | talk {first last : Int32} {line : TalkLine} {rest : List TalkLine} {world : ω}
      (lines : World.talkLines? e.scene.world first last = some (line :: rest))
      (performed : World.perform e.scene.world (.dialog line.text line.portrait) = .ok world)
      (free : e.chain.wait = none) :
      Acts e (.talk first last) ((e.withWorld world).park (.talk rest)) (.ok .parked)
  | talkEmpty {first last : Int32}
      (lines : World.talkLines? e.scene.world first last = some []) :
      Acts e (.talk first last) e (.error { cause := .talkEmpty first last })
  | jump {label : String} {p : Position} {i : Nat} (stands : e.chain.position = some p)
      (marked : p.script.markerOf? (Label.normalize label) = some i)
      (counts : e.chain.canCount (Label.normalize label) = true) :
      Acts e (.jump label)
        (e.withChain { e.chain.countVisit (Label.normalize label) with line := i + 1 })
        (.ok .moved)
  | jumpNowhere {label file : String} :
      Acts e (.jump label) e (.error { cause := .labelMissing (Label.normalize label) file })
  | jumpLost {label : String} (lost : e.chain.script? = none) :
      Acts e (.jump label) e (.error { cause := .scriptMissing })
  | run {target : String} {cache : Cache} {entry : Cached}
      (room : e.chain.depth + 1 ≤ e.options.maxDepth)
      (found : e.scene.cache.loadFirst (e.candidates target) = (cache, .ok entry))
      (inside : e.chain.script?.isSome = true) :
      Acts e (.run target) ((e.withCache cache).withChain (e.chain.enter entry.script))
        (.ok .entered)
  | runFirst {target : String} {cache : Cache} {entry : Cached}
      (room : e.chain.depth + 1 ≤ e.options.maxDepth)
      (found : e.scene.cache.loadFirst (e.candidates target) = (cache, .ok entry))
      (lost : e.chain.script? = none) :
      Acts e (.run target) ((e.withCache cache).withChain (e.chain.enter entry.script))
        (.ok .moved)
  | runNothing {target : String} {reads : Array String} {f : Fault}
      (missing : e.scene.cache.loadFirst (e.candidates target) =
        ({ e.scene.cache with reads }, .error f)) :
      Acts e (.run target) (e.withCache { e.scene.cache with reads }) (.error f)
  | runTooDeep {target : String} (full : e.options.maxDepth < e.chain.depth + 1) :
      Acts e (.run target) e (.error { cause := .depthExceeded e.options.maxDepth target })
  | goBack : Acts e .goBack (e.withChain e.chain.goBack) (.ok .moved)
  | stay : Acts e .stay e (.ok .moved)
  | stall (free : e.chain.wait = none) : Acts e .stall e (.ok .stalled)
  | stallWaiting (waits : e.chain.wait.isSome = true) : Acts e .stall e (.ok .parked)

/-- An effect is the same for two engines in the same world. -/
theorem agree_perform {e e' : Engine ω} {S : Engine ω → Engine ω → Prop}
    (hworld : e'.scene.world = e.scene.world)
    (hdone : ∀ world, S (e.withWorld world) (e'.withWorld world)) (effect : Effect) :
    Agree S (e.perform effect) (e'.perform effect) := by
  unfold perform
  rw [hworld]
  cases World.perform e.scene.world effect with
  | error crash => exact .error crash
  | ok world => exact .ok (hdone world)

omit [World ω] in
/-- A wait begins alike for two engines in the same world that wait for the same. -/
theorem agree_beginWait {e e' : Engine ω} {S : Engine ω → Engine ω → Prop}
    (hworld : e'.scene.world = e.scene.world) (hwait : e'.chain.wait = e.chain.wait) (wait : Wait)
    (hparked : S (e.park wait) (e'.park wait)) : Agree S (e.beginWait wait) (e'.beginWait wait) := by
  unfold beginWait
  rw [hworld, hwait]
  cases e.chain.wait with
  | none => exact .ok hparked
  | some active => exact .error _

/-- To show something and then wait comes to the same for two engines in the same world that wait
for the same. -/
theorem agree_performAndPark {e e' : Engine ω} {S : Acted ω → Acted ω → Prop}
    {course : Except Fault Course} (hworld : e'.scene.world = e.scene.world)
    (hwait : e'.chain.wait = e.chain.wait) (effect : Effect) (wait : Wait)
    (hshown : ∀ world, S ((e.withWorld world).park wait, course)
      ((e'.withWorld world).park wait, course)) :
    Agree S (e.perform effect >>= fun e => e.beginWait wait >>= fun e => pure (e, course))
      (e'.perform effect >>= fun e => e.beginWait wait >>= fun e => pure (e, course)) := by
  have hperform := agree_perform (S := fun b b' => ∃ world, b = e.withWorld world ∧
    b' = e'.withWorld world) hworld (fun world => ⟨world, rfl, rfl⟩) effect
  refine hperform.bind ?_
  rintro _ _ ⟨world, rfl, rfl⟩
  have hsame : (e'.withWorld world).scene.world = (e.withWorld world).scene.world := rfl
  have hbegin : Agree (fun b b' => S (b, course) (b', course))
      ((e.withWorld world).beginWait wait) ((e'.withWorld world).beginWait wait) :=
    agree_beginWait hsame hwait wait (hshown world)
  exact hbegin.bind fun _ _ hparked => .ok hparked

theorem agree_talk {e e' : Engine ω} {S : Acted ω → Acted ω → Prop}
    (hworld : e'.scene.world = e.scene.world) (hwait : e'.chain.wait = e.chain.wait)
    (hempty : ∀ f, S (e, .error f) (e', .error f))
    (hshown : ∀ world wait, S ((e.withWorld world).park wait, .ok .parked)
      ((e'.withWorld world).park wait, .ok .parked)) (first last : Int32) :
    Agree S (e.talk first last) (e'.talk first last) := by
  unfold talk
  rw [hworld]
  cases World.talkLines? e.scene.world first last with
  | none => exact .error _
  | some lines =>
    cases lines with
    | nil => exact .ok (hempty _)
    | cons line rest =>
      exact agree_performAndPark hworld hwait _ _ fun world => hshown world (.talk rest)

omit [World ω] in
theorem beginWait_eq_ok {e e' : Engine ω} {wait : Wait} :
    e.beginWait wait = .ok e' ↔ e.chain.wait = none ∧ e.park wait = e' := by
  unfold beginWait
  cases e.chain.wait <;> simp

theorem acts_talk {e e' : Engine ω} {first last : Int32} {course : Except Fault Course}
    (h : e.talk first last = .ok (e', course)) : Acts e (.talk first last) e' course := by
  unfold talk at h
  split at h
  · simp at h
  · next hlines =>
    obtain ⟨rfl, rfl⟩ := Prod.mk.inj (Except.ok.inj h)
    exact .talkEmpty hlines
  · next line rest hlines =>
    obtain ⟨shown, hshow, h⟩ := bind_eq_ok.mp h
    obtain ⟨world, hworld, rfl⟩ := perform_eq_ok.mp hshow
    obtain ⟨parked, hpark, h⟩ := bind_eq_ok.mp h
    obtain ⟨hfree, rfl⟩ := beginWait_eq_ok.mp hpark
    obtain ⟨rfl, rfl⟩ := Prod.mk.inj (Except.ok.inj h)
    exact .talk hlines hworld hfree

omit [World ω] in
theorem pass_eq_ok {e e' : Engine ω} {label : String} :
    e.pass label = .ok e' ↔
      e.chain.canCount label = true ∧ e.withChain (e.chain.countVisit label) = e' := by
  unfold pass
  split <;> simp_all

omit [World ω] in
theorem pass_of_canCount {e : Engine ω} {label : String} (h : e.chain.canCount label = true) :
    e.pass label = .ok (e.withChain (e.chain.countVisit label)) :=
  pass_eq_ok.mpr ⟨h, rfl⟩

theorem step_marker_eq_ok {e e' : Engine ω} {p : Position} {name literal : String} {line : Nat} :
    e.step p (.marker name literal line) = .ok e' ↔
      e.chain.canCount name = true ∧ e.withChain (e.chain.countVisit name).advance = e' := by
  simp only [step, bind_eq_ok, pass_eq_ok]
  constructor
  · rintro ⟨_, ⟨hcounts, rfl⟩, h⟩
    exact ⟨hcounts, Except.ok.inj h⟩
  · rintro ⟨hcounts, rfl⟩
    exact ⟨_, ⟨hcounts, rfl⟩, rfl⟩

omit [World ω] in
/-- A jump to a label that the current script has. -/
theorem jump_of_marked {e : Engine ω} {label : String} {p : Position} {i : Nat}
    (hstands : e.chain.position = some p)
    (hmarked : p.script.markerOf? (Label.normalize label) = some i) :
    e.jump label = e.pass (Label.normalize label) >>= fun e =>
      .ok (e.withChain { e.chain with line := i + 1 }, .ok .moved) := by
  simp only [jump, (Chain.position_eq_some.mp hstands).1, hmarked]
  rfl

theorem acts_jump {e e' : Engine ω} {label : String} {course : Except Fault Course}
    (h : e.jump label = .ok (e', course)) : Acts e (.jump label) e' course := by
  unfold jump at h
  cases hscript : e.chain.script? with
  | none =>
    simp only [hscript] at h
    obtain ⟨rfl, rfl⟩ := Prod.mk.inj (Except.ok.inj h)
    exact .jumpLost hscript
  | some script =>
    simp only [hscript] at h
    cases hmarked : script.markerOf? (Label.normalize label) with
    | none =>
      simp only [hmarked] at h
      obtain ⟨rfl, rfl⟩ := Prod.mk.inj (Except.ok.inj h)
      exact .jumpNowhere
    | some i =>
      simp only [hmarked] at h
      obtain ⟨passed, hpass, h⟩ := bind_eq_ok.mp h
      obtain ⟨hcounts, rfl⟩ := pass_eq_ok.mp hpass
      obtain ⟨rfl, rfl⟩ := Prod.mk.inj (Except.ok.inj h)
      exact .jump (p := ⟨script, e.chain.line⟩) (by simp [Chain.position, hscript]) hmarked hcounts

theorem acts_call (e : Engine ω) (target : String) :
    Acts e (.run target) (e.call target).1 (e.call target).2 := by
  unfold call
  split
  · next hfull => exact .runTooDeep hfull
  · next hroom =>
    cases hload : e.scene.cache.loadFirst (e.candidates target) with
    | mk cache found =>
      cases found with
      | error f =>
        obtain ⟨reads, rfl⟩ := Cache.loadFirst_error hload
        exact .runNothing hload
      | ok entry =>
        cases hscript : e.chain.script? with
        | none => simpa [hscript] using Acts.runFirst (by omega) hload hscript
        | some script =>
          simpa [hscript] using Acts.run (by omega) hload (by rw [hscript]; rfl)

theorem acts_of_act {e e' : Engine ω} {action : Action} {course : Except Fault Course}
    (h : e.act action = .ok (e', course)) : Acts e action e' course := by
  cases action with
  | proceed =>
    obtain ⟨rfl, rfl⟩ := Prod.mk.inj (Except.ok.inj h)
    exact .proceed
  | perform effect wait =>
    cases wait with
    | none =>
      obtain ⟨performed, hperform, h⟩ := bind_eq_ok.mp h
      obtain ⟨world, hworld, rfl⟩ := perform_eq_ok.mp hperform
      obtain ⟨rfl, rfl⟩ := Prod.mk.inj (Except.ok.inj h)
      exact .perform hworld
    | some wait =>
      obtain ⟨performed, hperform, h⟩ := bind_eq_ok.mp h
      obtain ⟨world, hworld, rfl⟩ := perform_eq_ok.mp hperform
      obtain ⟨parked, hpark, h⟩ := bind_eq_ok.mp h
      obtain ⟨hfree, rfl⟩ := beginWait_eq_ok.mp hpark
      obtain ⟨rfl, rfl⟩ := Prod.mk.inj (Except.ok.inj h)
      exact .performAndPark hworld hfree
  | park wait =>
    obtain ⟨parked, hpark, h⟩ := bind_eq_ok.mp h
    obtain ⟨hfree, rfl⟩ := beginWait_eq_ok.mp hpark
    obtain ⟨rfl, rfl⟩ := Prod.mk.inj (Except.ok.inj h)
    exact .park hfree
  | assign name value =>
    obtain ⟨rfl, rfl⟩ := Prod.mk.inj (Except.ok.inj h)
    exact .assign
  | draw name a b =>
    obtain ⟨rfl, rfl⟩ := Prod.mk.inj (Except.ok.inj h)
    exact .draw
  | talk first last => exact acts_talk h
  | jump label => exact acts_jump h
  | run target =>
    have hcall := Except.ok.inj h
    have hacts := acts_call e target
    rwa [hcall] at hacts
  | goBack =>
    obtain ⟨rfl, rfl⟩ := Prod.mk.inj (Except.ok.inj h)
    exact .goBack
  | stay =>
    obtain ⟨rfl, rfl⟩ := Prod.mk.inj (Except.ok.inj h)
    exact .stay
  | stall =>
    obtain ⟨rfl, rfl⟩ := Prod.mk.inj (Except.ok.inj h)
    cases hwait : e.chain.wait with
    | none => exact .stall hwait
    | some wait => exact .stallWaiting (by rw [hwait]; rfl)

theorem depth_goBack_le (c : Chain) : c.goBack.depth ≤ c.depth := by
  unfold Chain.goBack
  cases hleave : c.leave? with
  | none => exact Nat.le_refl _
  | some c' =>
    obtain ⟨caller, callers, hc, rfl⟩ := Chain.leave?_eq_some.mp hleave
    simp [Chain.depth, hc]

/-- Only a script that is started on top of another one makes the chain deeper. -/
theorem Acts.deeper_iff {e e' : Engine ω} {action : Action} {course : Course}
    (h : e.Acts action e' (.ok course)) :
    e.chain.depth < e'.chain.depth ↔ course = .entered := by
  cases h with
  | run room found inside =>
    obtain ⟨p, hp⟩ := Option.isSome_iff_exists.mp (Chain.isSome_position.trans inside)
    simp [Chain.depth, Chain.enter, hp]
  | runFirst room found lost =>
    simp [Chain.depth, Chain.enter, Chain.position_eq_none.mpr lost]
  | goBack => simpa using depth_goBack_le e.chain
  | _ => simp [Chain.depth, Chain.countVisit]

/-- A chain that is left waiting waits for something, and one that stalls does not. -/
theorem Acts.waits {e e' : Engine ω} {action : Action} {course : Course}
    (h : e.Acts action e' (.ok course)) (hflow : course.flow = .suspend) :
    e'.chain.wait.isSome = true ↔ course = .parked := by
  cases h with
  | performAndPark performed free => simp
  | park free => simp
  | talk lines performed free => simp
  | stall free => simp [free]
  | stallWaiting waits => simp [waits]
  | _ => cases hflow

theorem Acts.heed_eq {e e' : Engine ω} {file : String} {call : Call} {action : Action}
    {course : Course} (h : e.Acts action e' (.ok course)) :
    (if e.chain.depth < e'.reportLines.chain.depth then e'.reportLines.announce
      else e'.reportLines).heed file call course.flow = e'.follow file call (.ok course) := by
  have hdeeper := h.deeper_iff
  rw [reportLines_chain]
  cases course with
  | next =>
    rw [if_neg (fun hlt => by cases hdeeper.mp hlt)]
    rfl
  | moved =>
    rw [if_neg (fun hlt => by cases hdeeper.mp hlt)]
    rfl
  | entered =>
    rw [if_pos (hdeeper.mpr rfl)]
    rfl
  | parked =>
    rw [if_neg (fun hlt => by cases hdeeper.mp hlt)]
    simp [Course.flow, heed, follow, (h.waits rfl).mpr rfl]
  | stalled =>
    rw [if_neg (fun hlt => by cases hdeeper.mp hlt)]
    have hfree : e'.chain.wait.isSome ≠ true := fun hwaits => by
      cases (h.waits rfl).mp hwaits
    simp [Course.flow, heed, follow, skipFaulty, hfree]

/-- The dispatch of a call, read off the plan of its command and off the action of that. -/
theorem dispatch_eq (e : Engine ω) (file : String) (call : Call) :
    e.dispatch file call = match e.table.resolve call with
      | .error cause => .ok (e.skipFaulty file call { cause })
      | .ok command => match command.handler (e.view call) with
        | .error f => .ok (e.follow file call (.error f))
        | .ok action => e.act action >>= fun acted => .ok (acted.1.follow file call acted.2) := by
  unfold dispatch attempt
  cases e.table.resolve call with
  | error cause => rfl
  | ok command =>
    simp only [Handler.run_eq]
    cases command.handler (e.view call) with
    | error f => rfl
    | ok action =>
      dsimp only
      cases hact : e.act action with
      | error crash => rfl
      | ok acted =>
        obtain ⟨e', course⟩ := acted
        cases course with
        | error f => rfl
        | ok course => exact congrArg Except.ok (acts_of_act hact).heed_eq

/-- What the dispatch of a call comes to, as far as it does not crash. -/
inductive Dispatched (e : Engine ω) (file : String) (call : Call) : Engine ω → Prop where
  | unresolved {cause : Cause} (unknown : e.table.resolve call = .error cause) :
      Dispatched e file call (e.skipFaulty file call { cause })
  | refused {command : Command} {f : Fault} (resolves : e.table.resolve call = .ok command)
      (refuses : command.handler (e.view call) = .error f) :
      Dispatched e file call (e.follow file call (.error f))
  | acted {action : Action} {e' : Engine ω} {course : Except Fault Course}
      (asks : e.Asks call action) (acts : e.Acts action e' course) :
      Dispatched e file call (e'.follow file call course)

theorem dispatched_of_dispatch {e e' : Engine ω} {file : String} {call : Call}
    (h : e.dispatch file call = .ok e') : Dispatched e file call e' := by
  rw [dispatch_eq] at h
  split at h
  · next cause hunknown =>
    obtain rfl := Except.ok.inj h
    exact .unresolved hunknown
  · next command hresolves =>
    split at h
    · next f hrefuses =>
      obtain rfl := Except.ok.inj h
      exact .refused hresolves hrefuses
    · next action hasks =>
      obtain ⟨⟨acted, course⟩, hact, h⟩ := bind_eq_ok.mp h
      obtain rfl := Except.ok.inj h
      exact .acted ⟨command, hresolves, hasks⟩ (acts_of_act hact)

omit [World ω] in
/-- Only an action that goes on, or that fails, moves the chain to the next line. -/
theorem follow_chain (e : Engine ω) (file : String) (call : Call) (course : Except Fault Course) :
    (e.follow file call course).chain =
      match course with
      | .error _ | .ok .next | .ok .stalled => e.chain.advance
      | .ok .moved | .ok .entered | .ok .parked => e.chain := by
  cases course with
  | error f => simp [follow, skipFaulty, advance]
  | ok course => cases course <;> simp [follow, skipFaulty, advance]

end Engine

end Cutscene
