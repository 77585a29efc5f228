import Ns3Helix.SocketSteps

/-!
# What the application has asked of a Helix socket

The calls of a run determine what every socket object holds. They are
replayed on three copies of the base-class fields: `single` receives every
call, as a socket without a wrapper would, `overridden` the operations that
reach the UDP socket and `inherited` the members that do not.
-/

set_option autoImplicit false

namespace Ns3Helix.SocketHistory
open Ns3Helix.InteractionProgram Ns3Helix.SocketInterface Ns3Helix.SocketImpl
open Ns3Helix.SocketMachine Ns3Helix.TransitionSystem

/-- `recv` and `send` are the last callbacks passed to `SetRecvCallback` and
`SetSendCallback`: `none` before the first, `some none` for a null callback. -/
structure History (P : Platform) where
  recv : Option (Option P.AppCallback)
  send : Option (Option P.AppCallback)
  single : SocketFields P (fun _ => P.AppCallback)
  overridden : SocketFields P (fun _ => P.AppCallback)
  inherited : SocketFields P (fun _ => P.AppCallback)

variable {P : Platform} {η ι : Type} {M : UdpMachine P ι}

def History.empty : History P where
  recv := none
  send := none
  single := .fresh
  overridden := .fresh
  inherited := .fresh

def History.operate (H : History P) (o : Op P (fun _ => P.AppCallback)) : History P where
  recv := match o with
    | .setRecvCallback cb => some cb
    | _ => H.recv
  send := match o with
    | .setSendCallback cb => some cb
    | _ => H.send
  single := o.effect H.single
  overridden := o.effect H.overridden
  inherited := H.inherited

def History.inherit (H : History P) (i : Inherited (fun _ => P.AppCallback)) : History P :=
  { H with single := i.effect H.single, inherited := i.effect H.inherited }

def History.record [DecidableEq η] (H : History P) (h : η) : Action P η ι → History P
  | .call (.helix g) o => if g = h then H.operate o else H
  | .inherited (.helix g) i => if g = h then H.inherit i else H
  | _ => H

def history [DecidableEq η] (h : η) (ls : List (Label P η ι)) : History P :=
  ls.foldl (fun H l => H.record h l.1) .empty

theorem history_snoc [DecidableEq η] (h : η) (ls : List (Label P η ι)) (l : Label P η ι) :
    history h (ls++[l]) = (history h ls).record h l.1 := by
  simp [history]

def History.registered (H : History P) : Event → Option (Option P.AppCallback)
  | .recv => H.recv
  | .send _ => H.send
  | _ => none

structure Holds (h : η) (H : History P) (w : HelixSocketImpl P ι)
    (x : SocketFields P (Target P.AppCallback η)) : Prop where
  recv : w.mHandleRecv = H.recv.join
  send : w.mHandleSend = H.send.join
  base : w.base = H.inherited
  udpRecv : x.callback .recv = H.recv.map (fun _ => .handleRecv h)
  udpSend : x.callback .send = H.send.map (fun _ => .handleSend h)
  others : ∀ s, s ≠ .recv → s ≠ .send → x.callback s = none
  options : x.options = H.overridden.options
  unasked : ∀ name, name ≠ .ipTos → name ≠ .priority → H.overridden.options.value name = 0
  singleRecv : H.single.callback .recv = H.recv.join
  singleSend : H.single.callback .send = H.send.join
  device : H.inherited.boundNetDevice = none

theorem holds_fresh (h : η) (u : Option ι) :
    Holds h (.empty : History P) (HelixSocketImpl.fresh.setUdpSocket u) .fresh :=
  ⟨rfl,rfl,rfl,rfl,rfl,fun _ _ _ => rfl,rfl,fun _ _ _ => rfl,rfl,rfl,rfl⟩

section
variable {h : η} {H : History P} {w : HelixSocketImpl P ι}
  {x : SocketFields P (Target P.AppCallback η)}

theorem holds_operate (hw : Holds h H w x) (o : Op P (fun _ => P.AppCallback)) :
    Holds h (H.operate o) (w.register o) ((forwarded h o).effect x) := by
  have addressed : ∀ a, Holds h { H with
      single := { H.single with options := setAddressTos P a H.single.options }
      overridden := { H.overridden with options := setAddressTos P a H.overridden.options } }
      w { x with options := setAddressTos P a x.options } :=
    fun a => { hw with
      options := by simp only [hw.options]
      unasked := fun name ht hp => by
        rw [setAddressTos_other P a _ ht hp]
        exact hw.unasked name ht hp }
  cases o
  case setRecvCallback cb =>
    refine ⟨rfl,hw.send,hw.base,?_,?_,?_,hw.options,hw.unasked,?_,?_,hw.device⟩
    · simp [forwarded,Op.map,Op.effect,History.operate]
    · simpa [forwarded,Op.map,Op.effect,History.operate] using hw.udpSend
    · intro s hr hs
      simpa [forwarded,Op.map,Op.effect,hr] using hw.others s hr hs
    · simp [History.operate,Op.effect]
    · simpa [History.operate,Op.effect] using hw.singleSend
  case setSendCallback cb =>
    refine ⟨hw.recv,rfl,hw.base,?_,?_,?_,hw.options,hw.unasked,?_,?_,hw.device⟩
    · simpa [forwarded,Op.map,Op.effect,History.operate] using hw.udpRecv
    · simp [forwarded,Op.map,Op.effect,History.operate]
    · intro s hr hs
      simpa [forwarded,Op.map,Op.effect,hs] using hw.others s hr hs
    · simpa [History.operate,Op.effect] using hw.singleRecv
    · simp [History.operate,Op.effect]
  case connect a => exact addressed a
  case bindAddress a => exact addressed a
  case bindToNetDevice d => exact { hw with }
  all_goals exact hw

theorem holds_inherit (hw : Holds h H w x) (i : Inherited (fun _ => P.AppCallback)) :
    Holds h (H.inherit i) { w with base := i.effect w.base } x := by
  have hbase : i.effect w.base = i.effect H.inherited := by rw [hw.base]
  refine { hw with base := hbase, singleRecv := ?_, singleSend := ?_, device := ?_ }
  · cases i <;> simpa [History.inherit,Inherited.effect] using hw.singleRecv
  · cases i <;> simpa [History.inherit,Inherited.effect] using hw.singleSend
  · cases i <;> simpa [History.inherit,Inherited.effect] using hw.device

end

def Plain (x : SocketFields P (Target P.AppCallback η)) : Prop :=
  ∀ s target, x.callback s = some target → ∃ cb, target = .app cb

theorem plain_setCallback {x : SocketFields P (Target P.AppCallback η)} (h : Plain x) (s : Slot)
    (cb : Option P.AppCallback) : Plain (x.setCallback s (appCallback cb)) := by
  intro t target ht
  by_cases hs : t = s
  · subst hs
    rw [setCallback_same] at ht
    obtain ⟨a,_,rfl⟩ := Option.map_eq_some_iff.mp ht
    exact ⟨a,rfl⟩
  · rw [setCallback_other x s (appCallback cb) hs] at ht
    exact h t target ht

theorem plain_op {x : SocketFields P (Target P.AppCallback η)} (h : Plain x)
    (o : Op P (fun _ => P.AppCallback)) : Plain ((appOp o).effect x) := by
  cases o
  case setRecvCallback cb => exact plain_setCallback h .recv cb
  case setSendCallback cb => exact plain_setCallback h .send cb
  all_goals exact h

theorem plain_inherited {x : SocketFields P (Target P.AppCallback η)} (h : Plain x)
    (i : Inherited (fun _ => P.AppCallback)) : Plain ((appInherited i).effect x) := by
  cases i with
  | setConnectCallback a b => exact plain_setCallback (plain_setCallback h _ a) _ b
  | setCloseCallbacks a b => exact plain_setCallback (plain_setCallback h _ a) _ b
  | setAcceptCallback a b => exact plain_setCallback (plain_setCallback h _ a) _ b
  | setDataSentCallback a => exact plain_setCallback h _ a
  | setOption | unsetIpv6Tclass | getOption | getBoundNetDevice => exact h

/-- Every Helix socket `h` owns UDP socket `f h` and both hold what their
history says. -/
structure Tracks [DecidableEq η] (f : η ↪ ι) (ls : List (Label P η ι)) (c : Config P η ι M) :
    Prop where
  owner : ∀ h, (c.socket h).mUdpSocket = some (f h)
  holds : ∀ h, Holds h (history h ls) (c.socket h) (c.udp (f h))
  others : ∀ u, (∀ h, f h ≠ u) → Plain (c.udp u)
  echoing : c.Echoing

theorem tracks_initial [DecidableEq η] (M : UdpMachine P ι) (f : η ↪ ι) :
    Tracks f [] (initial M f) where
  owner _ := rfl
  holds h := holds_fresh h _
  others _ _ _ _ hs := by cases hs
  echoing _ hf := by cases hf

section Tracking

variable [DecidableEq η] {f : η ↪ ι} {ls : List (Label P η ι)} {c c' : Config P η ι M}
  {l : Label P η ι}

theorem tracks_unchanged (h : Tracks f ls c) (hc' : c'.Echoing) (hs : c'.socket = c.socket)
    (hu : c'.udp = c.udp) (hl : ∀ g, (history g ls).record g l.1 = history g ls) :
    Tracks f (ls++[l]) c' where
  owner g := by rw [hs]; exact h.owner g
  holds g := by rw [history_snoc,hl,hs,hu]; exact h.holds g
  others u hu' := by rw [hu]; exact h.others u hu'
  echoing := hc'

variable [DecidableEq ι]

/-- Only Helix socket `g` and its UDP socket have changed. -/
theorem tracks_helix {g : η} {w : HelixSocketImpl P ι}
    {x : SocketFields P (Target P.AppCallback η)} (h : Tracks f ls c) (hc' : c'.Echoing)
    (hs : c'.socket = Function.update c.socket g w) (hu : c'.udp = Function.update c.udp (f g) x)
    (hl : ∀ g', g' ≠ g → (history g' ls).record g' l.1 = history g' ls)
    (howner : w.mUdpSocket = some (f g)) (hholds : Holds g ((history g ls).record g l.1) w x) :
    Tracks f (ls++[l]) c' where
  owner g' := by
    rw [hs]
    by_cases hg : g' = g
    · subst hg
      rwa [Function.update_self]
    · rw [Function.update_of_ne hg]
      exact h.owner g'
  holds g' := by
    rw [history_snoc,hs,hu]
    by_cases hg : g' = g
    · subst hg
      rwa [Function.update_self,Function.update_self]
    · have hf : f g' ≠ f g := fun e => hg (f.injective e)
      rw [hl g' hg,Function.update_of_ne hg,Function.update_of_ne hf]
      exact h.holds g'
  others u hne := by
    rw [hu,Function.update_of_ne (hne g).symm]
    exact h.others u hne
  echoing := hc'

theorem tracks_plain {u : ι} {x : SocketFields P (Target P.AppCallback η)} (h : Tracks f ls c)
    (hc' : c'.Echoing) (hs : c'.socket = c.socket) (hu : c'.udp = Function.update c.udp u x)
    (hl : ∀ g, (history g ls).record g l.1 = history g ls) (hne : ∀ g, f g ≠ u) (hx : Plain x) :
    Tracks f (ls++[l]) c' where
  owner g := by rw [hs]; exact h.owner g
  holds g := by
    rw [history_snoc,hl,hs,hu,Function.update_of_ne (hne g)]
    exact h.holds g
  others v hv := by
    rw [hu]
    by_cases huv : v = u
    · subst huv
      rwa [Function.update_self]
    · rw [Function.update_of_ne huv]
      exact h.others v hv
  echoing := hc'

theorem tracks_step (h : Tracks f ls c) (hstep : Step M c l c') : Tracks f (ls++[l]) c' := by
  obtain ⟨hs,hu,he⟩ := step_after h.echoing hstep
  have hadmits := hstep.1
  obtain ⟨a,seen⟩ := l
  cases a with
  | callbackReturn => exact tracks_unchanged h he hs hu fun _ => rfl
  | udp move => exact tracks_unchanged h he hs hu fun _ => rfl
  | call s o =>
    cases s with
    | helix g =>
      simp only [Config.socketAfter,Config.udpAfter,h.owner g] at hs hu
      refine tracks_helix h he hs hu (fun g' hg => ?_) ?_ ?_
      · simp [History.record,Ne.symm hg]
      · rw [register_udpSocket]
        exact h.owner g
      · simpa [History.record] using holds_operate (h.holds g) o
    | udp u =>
      have hne : ∀ g, f g ≠ u := fun g e => hadmits g (by rw [h.owner g,e])
      exact tracks_plain h he hs hu (fun _ => rfl) hne (plain_op (h.others u hne) o)
  | inherited s i =>
    cases s with
    | helix g =>
      have hu' : c'.udp = Function.update c.udp (f g) (c.udp (f g)) := by
        rw [Function.update_eq_self]
        exact hu
      refine tracks_helix h he hs hu' (fun g' hg => ?_) (h.owner g) ?_
      · simp [History.record,Ne.symm hg]
      · simpa [History.record] using holds_inherit (h.holds g) i
    | udp u =>
      have hne : ∀ g, f g ≠ u := fun g e => hadmits g (by rw [h.owner g,e])
      exact tracks_plain h he hs hu (fun _ => rfl) hne (plain_inherited (h.others u hne) i)

theorem run_tracks {tr : List (Config P η ι M × Label P η ι)}
    (hrun : Run (Step M) (initial M f) tr c) : Tracks f (labels tr) c :=
  run_history (Tracks f) (tracks_initial M f) (fun _ _ _ _ => tracks_step) hrun

def History.answer (H : History P) (h : η) (e : Event) : Seen P η ι :=
  match H.registered e with
  | none => .nothing
  | some none => .crashed .nullCallback
  | some (some cb) => .invoked cb (.helix h) e

theorem raise_answer (h : Tracks f ls c) (g : η) (e : Event) :
    (c.raise (f g) e).2 = (history g ls).answer g e := by
  have hg := h.holds g
  generalize history g ls = H at hg
  have reached : ∀ (target : Target P.AppCallback η e.slot) (r : Option P.AppCallback),
      (c.udp (f g)).callback e.slot = some target → target.owner = some g →
      (c.socket g).kept e = r → H.registered e = some r →
      (c.raise (f g) e).2 = H.answer g e := by
    intro target r ht hb hk hr
    rw [Config.raise_bound ht hb,Config.reach,hk,History.answer,hr]
    cases r <;> rfl
  have ignored : (c.udp (f g)).callback e.slot = none → H.registered e = none →
      (c.raise (f g) e).2 = H.answer g e := by
    intro ht hr
    rw [Config.raise_none ht,History.answer,hr]
  cases e with
  | recv =>
    cases hr : H.recv with
    | none => exact ignored (hg.udpRecv.trans (by rw [hr]; rfl)) hr
    | some r =>
      have hk : (c.socket g).kept .recv = r := hg.recv.trans (by rw [hr]; rfl)
      exact reached (.handleRecv g) r (hg.udpRecv.trans (by rw [hr]; rfl)) rfl hk hr
  | send n =>
    cases hr : H.send with
    | none => exact ignored (hg.udpSend.trans (by rw [hr]; rfl)) hr
    | some r =>
      have hk : (c.socket g).kept (.send n) = r := hg.send.trans (by rw [hr]; rfl)
      exact reached (.handleSend g) r (hg.udpSend.trans (by rw [hr]; rfl)) rfl hk hr
  | connectionSucceeded | connectionFailed | normalClose | errorClose | dataSent n =>
    exact ignored (hg.others _ (fun h => by cases h) (fun h => by cases h)) rfl

def Quiet : Seen P η ι → Prop
  | .invoked _ _ _ => False
  | .crashed _ => False
  | _ => True

omit [DecidableEq η] [DecidableEq ι] in
theorem giveBack_quiet (s : SocketRef η ι) (v : Val P) : Quiet (c.giveBack s v).2 := by
  unfold Config.giveBack
  split <;> trivial

theorem echo_quiet (g : η) {t t' : Ty} {m : t.denote P → SocketM P η ι (t'.denote P)}
    (hm : Echoes t t' m) (v : t.denote P) : Quiet (c.run g t' (m v)).2 := by
  obtain ⟨out,hrun⟩ := Config.run_echo c g hm v
  rw [hrun]
  exact giveBack_quiet _ _

/-- Callbacks are invoked by events only. -/
theorem exec_quiet (h : Tracks f ls c) {a : Action P η ι} {r : Config P η ι M × Seen P η ι}
    (hexec : c.exec a = some r) :
    Quiet r.2 ∨ ∃ u e, a = .udp (.raise u e) ∧ r = c.raise u e := by
  cases Config.exec_executes hexec with
  | call s o _ =>
    cases s with
    | udp u => exact .inl trivial
    | helix g =>
      obtain ⟨out,m,hcall,_⟩ := Config.call_helix c g o (f g) (h.owner g)
      rw [hcall]
      exact .inl trivial
  | inherited s i _ => cases s <;> cases i <;> exact .inl trivial
  | resumeMethod w rest hs =>
    exact .inl (echo_quiet w.socket (Config.echoing_head h.echoing hs) ())
  | resumeUdp rest hs => exact .inl trivial
  | «return» u t v caller rest hs =>
    cases caller with
    | none => exact .inl (giveBack_quiet _ _)
    | some w => exact .inl (echo_quiet w.socket (Config.echoing_head h.echoing hs) v)
  | raise u e _ => exact .inr ⟨u,e,rfl,rfl⟩
  | transmit | receive => exact .inl trivial
  | wake _ => exact .inl trivial
  | sleep rest hs => exact .inl trivial

theorem raise_plain {u : ι} (h : Plain (c.udp u)) (e : Event) :
    (c.raise u e).2 = .nothing ∨ ∃ cb, (c.raise u e).2 = .invoked cb (.udp u) e := by
  cases hcb : (c.udp u).callback e.slot with
  | none => exact .inl (by rw [Config.raise_none hcb])
  | some target =>
    obtain ⟨cb,rfl⟩ := h _ _ hcb
    exact .inr ⟨cb,by rw [Config.raise_app hcb]⟩

omit [DecidableEq ι] in
theorem tracks_machine (h : Tracks f ls c) (s : M.State) : Tracks f ls (c.withMachine s) :=
  ⟨h.owner,h.holds,h.others,h.echoing⟩

/-- The state a step of a run starts from is tracked by what went before. -/
theorem run_tracks_at {tr : List (Config P η ι M × Label P η ι)}
    (hrun : Run (Step M) (initial M f) tr c) {pre post : List (Label P η ι)}
    (hl : labels tr = pre++l::post) :
    ∃ (t : Config P η ι M) (r : Config P η ι M × Seen P η ι),
      Tracks f pre t ∧ t.exec l.1 = some r ∧ r.2 = l.2 := by
  obtain ⟨pre',t,t',rfl,hpre,_,s,_,hexec⟩ := run_at_label hrun hl
  exact ⟨_,_,tracks_machine (run_tracks hpre) s,hexec,rfl⟩

theorem run_answer {tr : List (Config P η ι M × Label P η ι)}
    (hrun : Run (Step M) (initial M f) tr c) {pre post : List (Label P η ι)} {g : η} {e : Event}
    {seen : Seen P η ι} (hl : labels tr = pre++(.udp (.raise (f g) e),seen)::post) :
    seen = (history g pre).answer g e := by
  obtain ⟨t,r,htracks,hexec,hr⟩ := run_tracks_at hrun hl
  rw [show seen = r.2 from hr.symm]
  cases Config.exec_executes hexec with
  | raise u e _ => exact raise_answer htracks g e

end Tracking

end Ns3Helix.SocketHistory
