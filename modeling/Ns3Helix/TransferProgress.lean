import Ns3Helix.FunctionStack
import Ns3Helix.TransferCalls

/-!
# The large transfer goes on

The functions in progress mirror the calls and callbacks that are open, so the
example takes part in every move of the UDP layer and is never stuck itself.
-/

set_option autoImplicit false

namespace Ns3Helix.TransferProgress
open Ns3Helix.SocketInterface Ns3Helix.SocketImpl Ns3Helix.SocketMachine
open Ns3Helix.SocketHistory Ns3Helix.SocketCalls Ns3Helix.LargeTransfer
open Ns3Helix.FunctionStack Ns3Helix.TransferCalls Ns3Helix.TransferRuns
open Ns3Helix.TransitionSystem

variable {P : Platform} {η ι : Type} {E : Example P η}

abbrev Following (E : Example P η) (as : List (Activity η ι)) (p : Process P η ι) : Prop :=
  Follows (P := platform P) (Location.socket E) (Location.op E) as p.functions

variable {p p' : Process P η ι}

theorem process_turns {l : Label (platform P) η ι} (hstep : ProcessStep E p l p') :
    Turns (P := platform P) (Location.socket E) (Location.op E) p.functions l p'.functions := by
  cases hstep with
  | begin e scheduled idle =>
    rw [idle]
    exact .begin (e.start E) (e.start E)
  | call callback k fs hp =>
    rw [hp]
    exact .call (P := platform P) callback k k
  | returned callback k fs hp v =>
    rw [hp]
    exact .returned callback k v (resume E p.currentTxBytes k v).2
  | invoked u e cb s =>
    exact .invoked (P := platform P) u e cb s (cb.start p.currentTxBytes s)
  | callbackReturn cb fs hp =>
    rw [hp]
    exact .callbackReturn (P := platform P) cb
  | udp move seen hseen =>
    refine .udp move seen ?_ ?_
    · rintro s v rfl
      cases hseen
    · rintro cb s e rfl
      cases hseen

variable [DecidableEq η] [DecidableEq ι] {M : UdpMachine (platform P) ι} {f : η ↪ ι}
  {ls : List (Label (platform P) η ι)} {c : Config (platform P) η ι M} {p : Process P η ι}

theorem step_continues {c' : Config (platform P) η ι M} {l : Label (platform P) η ι}
    (h : Tracks f ls c) (hturns : Alternating (activities c)) (hstep : Step M c l c') :
    Continues (activities c) l (activities c') := by
  obtain ⟨_,s,_,hexec⟩ := hstep
  exact exec_continues (tracks_machine h s) hturns hexec

theorem run_follows
    {tr : List ((Config (platform P) η ι M × Process P η ι) × Label (platform P) η ι)}
    {x : Config (platform P) η ι M × Process P η ι}
    (hrun : Run (Joint E M) (initial M f,Process.initial) tr x) :
    Alternating (activities x.1) ∧ Following E (activities x.1) x.2 := by
  induction hrun with
  | nil => exact ⟨trivial,.nil⟩
  | snoc run last ih =>
    have hcontinues := step_continues (run_kept run).tracks ih.1 last.1
    exact ⟨continues_alternating hcontinues ih.1,
      follows_step ih.2 hcontinues (process_turns last.2)⟩

omit [DecidableEq η] [DecidableEq ι] in
/-- The example takes part in whatever the UDP layer does. -/
theorem process_accepts {as as' : List (Activity η ι)} {move : UdpMove (platform P) ι}
    {seen : Seen (platform P) η ι} (h : Following E as p)
    (hcontinues : Continues as (.udp move,seen) as') :
    ∃ p', ProcessStep E p (.udp move,seen) p' := by
  cases hcontinues with
  | returned s v =>
    obtain ⟨callback,l,_,fs,hp,rfl,ht,_⟩ := follows_call h rfl
    obtain ⟨t,v⟩ := v
    obtain rfl : t = (l.op E).ty := ht
    exact ⟨_,.returned callback l fs hp v⟩
  | invoked turn u e cb s => exact ⟨_,.invoked u e cb s⟩
  | ignored | crashed | transmit | receive | wake | sleep => exact ⟨p,.udp _ _ trivial⟩

theorem helix_call_enters {g : η} {o : Op (platform P) (fun _ => Callback)}
    (h : Tracks f ls c) (hruns : c.appRuns = true) :
    ∃ c', Step M c (.call (.helix g) o,.nothing) c' := by
  obtain ⟨out,k,hcall,_⟩ := Config.call_helix c g o (f g) (h.owner g)
  exact ⟨_,trivial,c.machine,rfl,(if_pos hruns).trans (congrArg some hcall)⟩

theorem callbackReturn_returns {as : List (Activity η ι)} (h : Tracks f ls c)
    (hturns : Alternating (activities c)) (has : activities c = .callback :: as) :
    ∃ c', Step M c (.callbackReturn,.nothing) c' := by
  obtain ⟨r,hr⟩ := callback_returns c has
  have hcontinues := exec_continues h hturns hr
  rw [has] at hcontinues
  generalize hseen : r.2 = seen at hcontinues
  cases hcontinues with
  | callbackReturn => exact ⟨r.1,trivial,c.machine,rfl,hr.trans (by rw [← hseen])⟩

/-- When it is its turn, a function in progress makes its next call or returns. -/
theorem process_proceeds (h : Kept E f ls c p) (hfollows : Following E (activities c) p)
    (hturns : Alternating (activities c)) (hruns : c.appRuns = true) (hp : p.functions ≠ []) :
    ∃ l y, (∀ move seen, l ≠ (.udp move,seen)) ∧ Joint E M (c,p) l y := by
  have turn : AppTurn (activities c) = true := (activities_appTurn c).trans hruns
  rcases follows_turn hfollows turn with hidle | ⟨callback,k,rest,hk⟩ | ⟨cb,rest,as,hk,has⟩
  · exact absurd hidle hp
  · obtain ⟨g,hg⟩ := placed_helix ((everywhere_rest h.placed hk).1 k rfl)
    obtain ⟨c',hstep⟩ := helix_call_enters (g := g) (o := k.op E) h.tracks hruns
    rw [← hg] at hstep
    exact ⟨_,(c',_),by simp,hstep,.call callback k rest hk⟩
  · obtain ⟨c',hstep⟩ := callbackReturn_returns h.tracks hturns has
    exact ⟨_,(c',_),by simp,hstep,.callbackReturn cb rest hk⟩

/-- The example is never stuck: it takes part in every move of the UDP layer,
and when it is its turn the function that runs has a step of its own. -/
theorem example_never_stuck
    {tr : List ((Config (platform P) η ι M × Process P η ι) × Label (platform P) η ι)}
    (hrun : Run (Joint E M) (initial M f,Process.initial) tr (c,p)) :
    (∀ move seen c', Step M c (.udp move,seen) c' →
      ∃ p', Joint E M (c,p) (.udp move,seen) (c',p')) ∧
    (c.appRuns = true → p.functions ≠ [] →
      ∃ l y, (∀ move seen, l ≠ (.udp move,seen)) ∧ Joint E M (c,p) l y) := by
  obtain ⟨hturns,hfollows⟩ := run_follows hrun
  have hkept := run_kept hrun
  refine ⟨fun move seen c' hstep => ?_,process_proceeds hkept hfollows hturns⟩
  obtain ⟨p',hp'⟩ := process_accepts hfollows (step_continues hkept.tracks hturns hstep)
  exact ⟨p',hstep,hp'⟩

theorem transfer_goes_on : ∃ tr x,
    Run (Joint unitExample arbitrary) (initial arbitrary (.refl Bool),Process.initial) tr x ∧
    x.2.currentTxBytes = totalTxBytes ∧
    ∃ l y, (∀ move seen, l ≠ (.udp move,seen)) ∧ Joint unitExample arbitrary x l y := by
  obtain ⟨tr,c,hrun,_,hidle,_⟩ := transfer_runs unitExample (.refl Bool)
  refine ⟨tr,_,hrun,rfl,(example_never_stuck hrun).2 ?_ (List.cons_ne_nil _ _)⟩
  rw [Config.appRuns,hidle]

end Ns3Helix.TransferProgress
