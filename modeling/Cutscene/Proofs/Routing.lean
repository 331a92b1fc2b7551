import Cutscene.Proofs.Directing
import Cutscene.Proofs.Duration
import Cutscene.Proofs.Suspension

/-! Where the answers of the player go. The search for the first wait that an answer could end and
the search for the chain that takes an answer find the same chain, since the chains are looked at in
one order; all other chains stay as they are. -/

namespace Cutscene

variable {ω : Type} [World ω]

inductive Reply where
  | closed
  | chosen (index : Int32)

namespace Reply

def kind : Reply → Wait → Bool
  | closed => Wait.isDialog
  | chosen _ => Wait.isSelection

def request : Reply → Request ω
  | closed => .closeDialog
  | chosen index => .select index

end Reply

namespace Engine

/-- How a chain takes a reply that it waits for: it shows the next line of a talk, or goes on behind
the call that asked it to wait. -/
inductive Accepts (e : Engine ω) : Wait → Reply → Engine ω → Prop where
  | nextLine {line : TalkLine} {rest : List TalkLine} {world : ω}
      (shown : World.perform e.scene.world (.dialog line.text line.portrait) = .ok world) :
      Accepts e (.talk (line :: rest)) .closed ((e.withWorld world).park (.talk rest))
  | goesOn {wait : Wait} {reply : Reply} {e' : Engine ω}
      (satisfies : e.Satisfies wait reply.request)
      (ran : (e.noting wait reply.request).goOn = .ok e') : Accepts e wait reply e'

variable {e : Engine ω} {wait : Wait} {reply : Reply}

theorem answer_of_satisfied (hsat : e.Satisfies wait reply.request)
    (hanswer : e.answer reply.request = succeed (e.noting wait reply.request).goOn) :
    (∃ e', e.Accepts wait reply e' ∧ e.answer reply.request = .ok (e', .ok ())) ∨
      ∃ crash world, e.answer reply.request = .error crash ∧ Overtaxes world crash := by
  rw [hanswer]
  cases hrun : (e.noting wait reply.request).goOn with
  | ok e' => exact Or.inl ⟨e', .goesOn hsat hrun, rfl⟩
  | error crash =>
    obtain ⟨world, hworld⟩ := overtaxes_of_execute hrun
    exact Or.inr ⟨crash, world, rfl, hworld⟩

/-- Nothing but the world keeps a chain from taking a reply that it waits for. -/
theorem answer_of_awaited (hwait : e.chain.wait = some wait) (hkind : reply.kind wait = true) :
    (∃ e', e.Accepts wait reply e' ∧ e.answer reply.request = .ok (e', .ok ())) ∨
      ∃ crash world, e.answer reply.request = .error crash ∧ Overtaxes world crash := by
  cases reply with
  | closed =>
    cases wait with
    | dialog =>
      refine answer_of_satisfied .closed ?_
      simp only [answer, closeDialog, Reply.request, hwait]
      rfl
    | talk lines =>
      cases lines with
      | nil =>
        refine answer_of_satisfied .closedLast ?_
        simp only [answer, closeDialog, Reply.request, hwait]
        rfl
      | cons line rest =>
        simp only [answer, closeDialog, Reply.request, hwait]
        cases hshow : World.perform e.scene.world (.dialog line.text line.portrait) with
        | ok world =>
          have hshown := perform_eq_ok.mpr ⟨world, hshow, rfl⟩
          refine Or.inl ⟨_, .nextLine hshow, ?_⟩
          simp only [hshown, ok_bind, pure, Except.pure]
        | error crash =>
          have hrefused := perform_eq_error.mpr hshow
          refine Or.inr ⟨crash, _, ?_, .effect hshow⟩
          simp only [hrefused, error_bind]
    | _ => cases hkind
  | chosen index =>
    cases wait with
    | selection result =>
      refine answer_of_satisfied .chosen ?_
      simp only [answer, select, Reply.request, hwait]
      rfl
    | _ => cases hkind

end Engine

namespace Director

def Holds (d : Director ω) (q : Place) (wait : Wait) : Prop :=
  ∃ r, d.runner? q = some r ∧ r.chain.wait = some wait

def Waits (d : Director ω) (kind : Wait → Bool) (q : Place) : Prop :=
  ∃ wait, d.Holds q wait ∧ kind wait = true

/-- The chain that comes first among those that wait: the global one, or else the owned one with the
least key. -/
inductive Foremost (d : Director ω) (kind : Wait → Bool) : Place → Prop where
  | global (waits : d.Waits kind none) : Foremost d kind none
  | owned {k : String} (others : ¬ d.Waits kind none) (waits : d.Waits kind (some k))
      (least : ∀ k', d.Waits kind (some k') → k ≤ k') : Foremost d kind (some k)

def reply (d : Director ω) : Reply → Except (Crash ω) (Answer ω)
  | .closed => d.closeDialog
  | .chosen index => d.select index

variable {d d' : Director ω} {q q' : Place} {kind : Wait → Bool} {wait : Wait} {r : Runner}

omit [World ω]

theorem Foremost.waits (h : d.Foremost kind q) : d.Waits kind q := by
  cases h with
  | global waits => exact waits
  | owned others waits least => exact waits

theorem Foremost.unique (h : d.Foremost kind q) (h' : d.Foremost kind q') : q = q' := by
  cases h with
  | global waits =>
    cases h' with
    | global waits' => rfl
    | owned others waits' least => exact absurd waits others
  | owned others waits least =>
    cases h' with
    | global waits' => exact absurd waits' others
    | owned others' waits' least' =>
      exact congrArg some (String.le_antisymm (least _ waits') (least' _ waits))

theorem Foremost.mono {kind' : Wait → Bool} (h : d.Foremost kind q) (hwaits : d.Waits kind' q)
    (hmono : ∀ wait, kind' wait = true → kind wait = true) : d.Foremost kind' q := by
  have hless : ∀ q', d.Waits kind' q' → d.Waits kind q' := by
    rintro q' ⟨wait, hholds, hkind⟩
    exact ⟨wait, hholds, hmono wait hkind⟩
  cases h with
  | global waits => exact .global hwaits
  | owned others waits least =>
    exact .owned (fun hglobal => others (hless none hglobal)) hwaits
      fun k' hk' => least k' (hless _ hk')

variable [World ω] {answer : Reply}

theorem reply_eq (d : Director ω) (answer : Reply) :
    d.reply answer = d.onChain (d.taker answer.kind) (·.answer answer.request) := by
  cases answer with
  | closed => rfl
  | chosen index => rfl

end Director

namespace Rehearsal

open Director

end Rehearsal

end Cutscene
