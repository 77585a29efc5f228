import Ns3Helix.SocketCalls

/-!
# What the Rust library prints

The Rust library sees a call before the UDP socket does, and a packet after
it. Which functions of the library are called, and when, is therefore told by
the calls and returns of the application alone.
-/

set_option autoImplicit false

namespace Ns3Helix.RustOutput
open Ns3Helix.InteractionProgram Ns3Helix.SocketInterface Ns3Helix.RustInterface
open Ns3Helix.SocketImpl Ns3Helix.SocketMachine Ns3Helix.SocketHistory
open Ns3Helix.SocketCalls Ns3Helix.TransitionSystem

variable {P : Platform} {η ι : Type} {M : UdpMachine P ι}

def linesOnCall {κ : Slot → Type} : Op P κ → List String
  | .bindToNetDevice _ => [helixRsBind.printed]
  | .bind => [helixRsBind.printed]
  | .bind6 => [helixRsBind.printed]
  | .bindAddress _ => [helixRsBind.printed]
  | .connect _ => [helixRsConnect.printed]
  | .listen => [helixRsListen.printed]
  | .send _ _ => [(helixRsSend .zero).printed]
  | .sendTo _ _ _ => [(helixRsSend .zero).printed]
  | .close => [helixRsClose.printed]
  | _ => []

def linesOnReturn : Ty → List String
  | .packet => [(helixRsRecv .zero).printed]
  | .packetAddress => [(helixRsRecv .zero).printed]
  | _ => []

def rustLines : Label P η ι → List String
  | (.call (.helix _) o,_) => linesOnCall o
  | (_,.returned (.helix _) v) => linesOnReturn v.1
  | _ => []

def Prints (t t' : Ty) (k : t.denote P → SocketM P η ι (t'.denote P)) : Prop :=
  ∀ v d out, ∃ v', advance (fields P ι) (k v) (d,out) = .done (d,out++linesOnReturn t) v' ∧
    (⟨t',v'⟩ : Val P) = ⟨t,v⟩

theorem prints_pure {t : Ty} (ht : linesOnReturn t = []) :
    Prints t t (.pure : t.denote P → SocketM P η ι (t.denote P)) := by
  intro v d out
  rw [ht,List.append_nil]
  exact ⟨v,rfl,rfl⟩

/-- Every override prints before it calls the UDP socket, or after it. -/
theorem method_prints (this : η) (o : Op P (fun _ => P.AppCallback)) (d : HelixSocketImpl P ι)
    (out : List String) (u : ι) (hu : d.mUdpSocket = some u) :
    ∃ out' k, advance (fields P ι) (method this o) (d,out) =
        .suspended (d.register o,out') (.udp u (forwarded this o)) k ∧
      out' = out++linesOnCall o ∧ Prints (forwarded this o).ty o.ty k := by
  obtain ⟨node,udpSocket,helix,handleRecv,handleSend,base⟩ := d
  obtain rfl : udpSocket = some u := hu
  cases o
  case recv n flags => exact ⟨_,_,rfl,(List.append_nil _).symm,fun v d out => ⟨v,rfl,rfl⟩⟩
  case recvFrom n flags a => exact ⟨_,_,rfl,(List.append_nil _).symm,fun v d out => ⟨v,rfl,rfl⟩⟩
  case bindToNetDevice | connect | bind | bind6 | bindAddress | listen | send | sendTo | close =>
    exact ⟨_,_,rfl,rfl,prints_pure rfl⟩
  all_goals exact ⟨_,_,rfl,(List.append_nil _).symm,prints_pure rfl⟩

def Frame.Printing : Frame P η ι → Prop
  | .udp _ t (some w) => Prints t w.result w.rest
  | .app (some w) => Prints .void w.result w.rest
  | _ => True

def Printing (c : Config P η ι M) : Prop := ∀ g ∈ c.stack, Frame.Printing g

variable [DecidableEq η] [DecidableEq ι] {f : η ↪ ι} {ls : List (Label P η ι)}
  {c : Config P η ι M}

theorem call_prints (c : Config P η ι M) (h : η) (o : Op P (fun _ => P.AppCallback)) (u : ι)
    (hu : (c.socket h).mUdpSocket = some u) :
    ∃ k, c.call (.helix h) o =
        ((c.store h ((c.socket h).register o,c.printed++linesOnCall o)).enterUdp
          u (forwarded h o) (some ⟨h,o.ty,k⟩),.nothing) ∧
      Prints (forwarded h o).ty o.ty k := by
  obtain ⟨_,k,hrun,rfl,hk⟩ := method_prints h o (c.socket h) c.printed u hu
  exact ⟨k,by simp only [Config.call,Config.run,hrun,Config.land],hk⟩

theorem run_prints (c : Config P η ι M) (h : η) {t t' : Ty}
    {k : t.denote P → SocketM P η ι (t'.denote P)} (hk : Prints t t' k) (v : t.denote P) :
    c.run h t' (k v) = ({ c with printed := c.printed++linesOnReturn t } : Config P η ι M).giveBack
      (.helix h) ⟨t,v⟩ := by
  obtain ⟨v',hrun,hv⟩ := hk v (c.socket h) c.printed
  simp only [Config.run,hrun,Config.land,Config.store_same,hv]

omit [DecidableEq η] [DecidableEq ι] in
@[simp] theorem giveBack_printed (s : SocketRef η ι) (v : Val P) :
    (c.giveBack s v).1.printed = c.printed := by
  unfold Config.giveBack
  split <;> rfl

omit [DecidableEq η] [DecidableEq ι] in
theorem printing_push (h : Printing c) {g : Frame P η ι} (hg : Frame.Printing g) :
    Printing (c.push g) := by
  intro g' hg'
  rcases List.mem_cons.mp hg' with rfl | hg'
  · exact hg
  · exact h g' hg'

omit [DecidableEq η] [DecidableEq ι] in
theorem printing_unwind (h : Printing c) {g : Frame P η ι} {rest : List (Frame P η ι)}
    (hs : c.stack = g :: rest) : Frame.Printing g ∧ Printing (c.unwind rest) :=
  ⟨h g (by simp [hs]),fun g' hg' => h g' (by rw [hs]; exact List.mem_cons_of_mem _ hg')⟩

theorem raise_prints (h : Printing c) (u : ι) (e : Event) :
    (c.raise u e).1.printed = c.printed++rustLines (.udp (.raise u e),(c.raise u e).2) ∧
      Printing (c.raise u e).1 := by
  have same : c.printed = c.printed++[] := (List.append_nil _).symm
  cases hcb : (c.udp u).callback e.slot with
  | none =>
    rw [Config.raise_none hcb]
    exact ⟨same,h⟩
  | some target =>
    rcases target_cases target with ⟨cb,rfl⟩ | ⟨g,hg⟩
    · rw [Config.raise_app hcb]
      exact ⟨same,printing_push h trivial⟩
    · rw [Config.raise_bound hcb hg,Config.reach]
      cases (c.socket g).kept e with
      | none => exact ⟨same,printing_push h trivial⟩
      | some cb => exact ⟨same,printing_push (g := .app (some ⟨g,.void,.pure⟩)) h (prints_pure rfl)⟩

theorem exec_prints (h : Tracks f ls c) (hturns : Alternating (activities c)) (hc : Printing c)
    {a : Action P η ι} {r : Config P η ι M × Seen P η ι} (hexec : c.exec a = some r) :
    r.1.printed = c.printed++rustLines ((a,r.2) : Label P η ι) ∧ Printing r.1 := by
  cases Config.exec_executes hexec with
  | call s o _ =>
    cases s with
    | udp u => exact ⟨(List.append_nil _).symm,printing_push (c := c.setUdp u _) hc trivial⟩
    | helix g =>
      obtain ⟨k,hcall,hk⟩ := call_prints c g o (f g) (h.owner g)
      rw [hcall]
      exact ⟨rfl,printing_push (g := .udp (f g) _ (some ⟨g,o.ty,k⟩)) hc hk⟩
  | inherited s i _ => cases s <;> cases i <;> exact ⟨(List.append_nil _).symm,hc⟩
  | resumeMethod w rest hs =>
    obtain ⟨hw,hrest⟩ := printing_unwind hc hs
    rw [run_prints (c.unwind rest) w.socket hw ()]
    refine ⟨?_,by simpa [Printing] using hrest⟩
    unfold Config.giveBack
    split <;> simp [rustLines,linesOnReturn,Config.resume,Config.withMachine,Config.unwind]
  | resumeUdp rest hs => exact ⟨(List.append_nil _).symm,(printing_unwind hc hs).2⟩
  | «return» u t v caller rest hs =>
    obtain ⟨hw,hrest⟩ := printing_unwind hc hs
    have hruns := return_runs hturns hs
    cases caller with
    | none =>
      rw [Config.handOver,giveBack_returned _ hruns]
      exact ⟨(List.append_nil _).symm,hrest⟩
    | some w =>
      have hruns' : Config.appRuns ({ c.unwind rest with
          printed := (c.unwind rest).printed++linesOnReturn t } : Config P η ι M) = true := hruns
      rw [Config.handOver,run_prints (c.unwind rest) w.socket hw v,giveBack_returned _ hruns']
      exact ⟨rfl,hrest⟩
  | raise u e _ => exact raise_prints hc u e
  | transmit | receive => exact ⟨(List.append_nil _).symm,hc⟩
  | wake _ => exact ⟨(List.append_nil _).symm,printing_push hc trivial⟩
  | sleep rest hs => exact ⟨(List.append_nil _).symm,(printing_unwind hc hs).2⟩

theorem run_printing {tr : List (Config P η ι M × Label P η ι)}
    (hrun : Run (Step M) (initial M f) tr c) :
    c.printed = (labels tr).flatMap rustLines ∧ Printing c ∧ Alternating (activities c) := by
  induction hrun with
  | nil => exact ⟨rfl,fun _ h => (by cases h),trivial⟩
  | @snoc tr t u l run last ih =>
    obtain ⟨hprinted,hprinting,hturns⟩ := ih
    obtain ⟨_,s,_,hexec⟩ := last
    have htracks := tracks_machine (run_tracks run) s
    obtain ⟨hstep,hprinting'⟩ := exec_prints htracks hturns hprinting hexec
    refine ⟨?_,hprinting',continues_alternating (exec_continues htracks hturns hexec) hturns⟩
    rw [hstep,labels_append,List.flatMap_append,← hprinted]
    simp [Config.withMachine]

/-- In every run the library has printed one line for each call that reaches it,
as it is made, and one for each return of `Recv` or `RecvFrom`, with a packet or
with a null one, and no other. -/
theorem printed_exact {tr : List (Config P η ι M × Label P η ι)}
    (hrun : Run (Step M) (initial M f) tr c) : c.printed = (labels tr).flatMap rustLines :=
  (run_printing hrun).1

/-- Connecting prints once, however often the UDP socket reports. -/
theorem connecting_printed : ∃ tr c, Run (Step .prompt) (initial .prompt (.refl Unit)) tr c ∧
    c.printed = ["HELIX - RS: Connect"] := by
  have start : Run (Step .prompt) (initial .prompt (.refl Unit)) [] _ := .nil
  have called := run_then start (.call (.helix ()) (.connect ()),.nothing) ⟨trivial,_,rfl,rfl⟩
  have raised := run_then called (.udp (.raise () .connectionSucceeded),.nothing)
    ⟨trivial,_,rfl,rfl⟩
  have hrun := run_then raised (.udp (.return ⟨.int,0⟩),.returned (.helix ()) ⟨.int,0⟩)
    ⟨trivial,_,rfl,rfl⟩
  exact ⟨_,_,hrun,printed_exact hrun⟩

end Ns3Helix.RustOutput
