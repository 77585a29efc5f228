import Ns3Helix.NullCallback

/-!
# The state a Helix socket inherits

The members that `HelixSocketImpl` does not override work on the fields of
the wrapper, while the UDP socket raises its events, stamps its packets and
records its device through fields of its own. The yardstick is one socket
that receives every call. Which runs cannot tell the difference is read off
their calls alone.
-/

set_option autoImplicit false

namespace Ns3Helix.InheritedState
open Ns3Helix.SocketInterface Ns3Helix.SocketImpl Ns3Helix.SocketMachine
open Ns3Helix.SocketHistory Ns3Helix.TransitionSystem

variable {P : Platform} {η ι : Type} {M : UdpMachine P ι}

def delivered (H : History P) (g : η) (e : Event) : Seen P η ι :=
  match H.single.callback e.slot with
  | some cb => .invoked cb (.helix g) e
  | none => .nothing

/-- What Helix socket `g` shows at a step is what a single socket with the
same calls behind it would show. No other step invokes a callback for it. -/
def AsSingle (f : η ↪ ι) (g : η) (H : History P) : Label P η ι → Prop
  | (.udp (.raise u e),seen) => u = f g → seen = delivered H g e
  | (.udp (.transmit u connected address),seen) =>
      u = f g → seen = .stamped (sendTags P connected address H.single.options)
  | (.udp (.receive u fromAddress),seen) =>
      u = f g → seen = .informed (recvTags P fromAddress H.single.options)
  | (.inherited (.helix h) i,seen) => h = g → seen = inheritedSeen H.single i
  | (_,seen) => ∀ cb e, seen ≠ .invoked cb (.helix g) e

/-- The calls before a step leave nothing for it to miss. -/
def Unshadowed (f : η ↪ ι) (g : η) (H : History P) : Action P η ι → Prop
  | .udp (.raise u e) => u = f g → H.registered e ≠ some none ∧
      (e.slot ≠ .recv → e.slot ≠ .send → H.single.callback e.slot = none)
  | .udp (.transmit u connected address) => u = f g →
      sendTags P connected address H.overridden.options =
        sendTags P connected address H.single.options
  | .udp (.receive u fromAddress) => u = f g →
      ∀ name ∈ recvOptions P fromAddress, H.single.options.value name = 0
  | .inherited (.helix h) (.getOption name) =>
      h = g → H.inherited.options.value name = H.single.options.value name
  | .inherited (.helix h) .getBoundNetDevice => h = g → H.single.boundNetDevice = none
  | _ => True

theorem quiet_uninvoked {seen : Seen P η ι} (h : Quiet seen) (g : η) :
    ∀ cb e, seen ≠ .invoked cb (.helix g) e := by
  rintro cb e rfl
  exact h

/-- For receive and send events only a null registration makes a difference. -/
theorem answer_delivered {h : η} {H : History P} {w : HelixSocketImpl P ι}
    {x : SocketFields P (Target P.AppCallback η)} (hw : Holds h H w x) (e : Event) :
    H.answer h e = (delivered H h e : Seen P η ι) ↔ H.registered e ≠ some none ∧
      (e.slot ≠ .recv → e.slot ≠ .send → H.single.callback e.slot = none) := by
  have transported : ∀ r : Option (Option P.AppCallback), H.registered e = r →
      H.single.callback e.slot = r.join →
      (H.answer h e = (delivered H h e : Seen P η ι) ↔ r ≠ some none) := by
    intro r hr hs
    rw [History.answer,delivered,hr,hs]
    rcases r with _ | _ | cb <;> simp
  have shadowed : H.registered e = none → (H.answer h e = (delivered H h e : Seen P η ι) ↔
      H.single.callback e.slot = none) := by
    intro hr
    rw [History.answer,delivered,hr]
    cases H.single.callback e.slot <;> simp
  cases e with
  | recv => simpa [History.registered,Event.slot] using transported H.recv rfl hw.singleRecv
  | send n => simpa [History.registered,Event.slot] using transported H.send rfl hw.singleSend
  | connectionSucceeded | connectionFailed | normalClose | errorClose | dataSent n =>
    simpa [History.registered,Event.slot] using shadowed rfl

theorem inherited_single {h : η} {H : History P} {w : HelixSocketImpl P ι}
    {x : SocketFields P (Target P.AppCallback η)} (hw : Holds h H w x)
    (f : η ↪ ι) (i : Inherited (fun _ => P.AppCallback)) :
    inheritedSeen w.base i = (inheritedSeen H.single i : Seen P η ι) ↔
      Unshadowed f h H (.inherited (.helix h) i) := by
  cases i with
  | getOption name => simp [inheritedSeen,Unshadowed,hw.base]
  | getBoundNetDevice =>
    simp [inheritedSeen,Unshadowed,hw.base,hw.device,eq_comm]
  | _ => simp [inheritedSeen,Unshadowed]

/-- No option that asks for information ever reaches the UDP socket. -/
theorem informed_single {h : η} {H : History P} {w : HelixSocketImpl P ι}
    {x : SocketFields P (Target P.AppCallback η)} (hw : Holds h H w x) (fromAddress : P.Address) :
    recvTags P fromAddress x.options = recvTags P fromAddress H.single.options ↔
      ∀ name ∈ recvOptions P fromAddress, H.single.options.value name = 0 := by
  have untagged : recvTags P fromAddress x.options = [] := by
    refine List.filter_eq_nil_iff.mpr fun name hname => ?_
    obtain ⟨htos,hpriority⟩ := recvOptions_asks P hname
    simp [hw.options,hw.unasked name htos hpriority]
  rw [untagged,eq_comm,recvTags,List.filter_eq_nil_iff]
  simp

section Steps

variable [DecidableEq η] [DecidableEq ι] {f : η ↪ ι} {ls : List (Label P η ι)}
  {c : Config P η ι M}

theorem step_asSingle_iff (h : Tracks f ls c) {l : Label P η ι} {r : Config P η ι M × Seen P η ι}
    (hexec : c.exec l.1 = some r) (hr : r.2 = l.2) (g : η) :
    AsSingle f g (history g ls) l ↔ Unshadowed f g (history g ls) l.1 := by
  obtain ⟨a,seen⟩ := l
  obtain rfl : r.2 = seen := hr
  have hquiet := exec_quiet h hexec
  have silent : ∀ cb e, (.nothing : Seen P η ι) ≠ .invoked cb (.helix g) e := by simp
  cases Config.exec_executes hexec with
  | call s o _ =>
    rcases hquiet with hq | ⟨u,e,ha,_⟩
    · exact iff_of_true (quiet_uninvoked hq g) (by cases s <;> trivial)
    · cases ha
  | inherited s i _ =>
    cases s with
    | udp u =>
      refine iff_of_true ?_ trivial
      cases i <;> simp [AsSingle,Config.inherited,inheritedSeen]
    | helix k =>
      by_cases hk : k = g
      · subst hk
        have hsingle := inherited_single (h.holds k) f i
        simpa [AsSingle,Config.inherited] using hsingle
      · cases i <;> simp [AsSingle,Unshadowed,hk]
  | resumeMethod w rest hs =>
    rcases hquiet with hq | ⟨u,e,ha,_⟩
    · exact iff_of_true (quiet_uninvoked hq g) trivial
    · cases ha
  | resumeUdp rest hs => exact iff_of_true silent trivial
  | «return» u t v caller rest hs =>
    rcases hquiet with hq | ⟨u,e,ha,_⟩
    · exact iff_of_true (quiet_uninvoked hq g) trivial
    · cases ha
  | raise u e _ =>
    by_cases hu : u = f g
    · subst hu
      simpa [AsSingle,Unshadowed,raise_answer h g e] using answer_delivered (h.holds g) e
    · simp [AsSingle,Unshadowed,hu]
  | transmit u connected address _ =>
    by_cases hu : u = f g
    · subst hu
      simp [AsSingle,Unshadowed,(h.holds g).options]
    · simp [AsSingle,Unshadowed,hu]
  | receive u fromAddress _ =>
    by_cases hu : u = f g
    · subst hu
      simpa [AsSingle,Unshadowed] using informed_single (h.holds g) fromAddress
    · simp [AsSingle,Unshadowed,hu]
  | wake _ => exact iff_of_true silent trivial
  | sleep rest hs => exact iff_of_true silent trivial

/-- Every event, packet and getter of every Helix socket is as on a single
socket exactly in the runs whose calls leave nothing for a step to miss. -/
theorem inherited_state_agrees_iff {tr : List (Config P η ι M × Label P η ι)}
    (hrun : Run (Step M) (initial M f) tr c) :
    (∀ g pre l post, labels tr = pre++l::post → AsSingle f g (history g pre) l) ↔
      ∀ g pre l post, labels tr = pre++l::post → Unshadowed f g (history g pre) l.1 := by
  have each : ∀ g pre l post, labels tr = pre++l::post →
      (AsSingle f g (history g pre) l ↔ Unshadowed f g (history g pre) l.1) := by
    intro g pre l post hl
    obtain ⟨t,r,htracks,hexec,hr⟩ := run_tracks_at hrun hl
    exact step_asSingle_iff htracks hexec hr g
  constructor
  · intro hagree g pre l post hl
    exact (each g pre l post hl).mp (hagree g pre l post hl)
  · intro hclear g pre l post hl
    exact (each g pre l post hl).mpr (hclear g pre l post hl)

end Steps

/-- The application asks for the traffic class of received packets and reads a
TTL. A packet leaves and an event is delivered as from a single socket; the
packet that comes in carries no traffic class. -/
theorem asking_agrees_until_received : ∃ tr, ∃ c : Config .unit Unit Unit arbitrary,
    labels tr = [(.call (.helix ()) (.setSendCallback (some ())),.nothing),
      (.udp (.return ⟨.void,()⟩),.returned (.helix ()) ⟨.void,()⟩),
      (.inherited (.helix ()) (.setOption .ipv6RecvTclass 1),.nothing),
      (.inherited (.helix ()) (.getOption .ipTtl),.option 0),
      (.call (.helix ()) (.send (some ()) 0),.nothing),
      (.udp (.transmit () true ()),.stamped ⟨none,none,none,none,none⟩),
      (.udp (.raise () (.send 0)),.invoked () (.helix ()) (.send 0)),
      (.callbackReturn,.nothing),
      (.udp (.receive () ()),.informed [])] ∧
    Run (Step arbitrary) (initial arbitrary (.refl Unit)) tr c ∧
    ¬ ∀ g pre l post, labels tr = pre++l::post →
      AsSingle (Function.Embedding.refl Unit) g (history g pre) l := by
  have start : Run (Step (arbitrary : UdpMachine .unit Unit)) (initial arbitrary (.refl Unit))
    [] _ := .nil
  have called := run_then start (.call (.helix ()) (.setSendCallback (some ())),.nothing)
    ⟨trivial,(),rfl,rfl⟩
  have registered := run_then called (.udp (.return ⟨.void,()⟩),.returned (.helix ()) ⟨.void,()⟩)
    ⟨trivial,(),trivial,rfl⟩
  have asked := run_then registered
    (.inherited (.helix ()) (.setOption .ipv6RecvTclass 1),.nothing) ⟨trivial,(),rfl,rfl⟩
  have read := run_then asked (.inherited (.helix ()) (.getOption .ipTtl),.option 0)
    ⟨trivial,(),rfl,rfl⟩
  have sending := run_then read (.call (.helix ()) (.send (some ()) 0),.nothing)
    ⟨trivial,(),rfl,rfl⟩
  have sent := run_then sending
    (.udp (.transmit () true ()),.stamped ⟨none,none,none,none,none⟩) ⟨trivial,(),trivial,rfl⟩
  have delivered := run_then sent
    (.udp (.raise () (.send 0)),.invoked () (.helix ()) (.send 0)) ⟨trivial,(),trivial,rfl⟩
  have done := run_then delivered (.callbackReturn,.nothing) ⟨trivial,(),rfl,rfl⟩
  have hrun := run_then done (.udp (.receive () ()),.informed []) ⟨trivial,(),trivial,rfl⟩
  refine ⟨_,_,rfl,hrun,fun hagree => ?_⟩
  have hclear := (inherited_state_agrees_iff hrun).mp hagree () [_,_,_,_,_,_,_,_]
    (.udp (.receive () ()),.informed []) [] rfl rfl .ipv6RecvTclass (by decide)
  cases hclear

/-- An application that waits for its connect callback before it sends waits
forever: the UDP socket reports the connection, and nothing is invoked. -/
theorem connect_callback_missed :
    ¬ ∀ ls, Traces (Step .prompt) (initial .prompt (.refl Unit)) ls →
      ∀ g pre l post, ls = pre++l::post →
        AsSingle (Function.Embedding.refl Unit) g (history g pre) l := by
  intro hagree
  have start : Run (Step .prompt) (initial .prompt (.refl Unit)) [] _ := .nil
  have registered := run_then start
    (.inherited (.helix ()) (.setConnectCallback (some ()) none),.nothing) ⟨trivial,_,rfl,rfl⟩
  have connecting := run_then registered (.call (.helix ()) (.connect ()),.nothing)
    ⟨trivial,_,rfl,rfl⟩
  have hrun := run_then connecting (.udp (.raise () .connectionSucceeded),.nothing)
    ⟨trivial,_,rfl,rfl⟩
  have hraise := hagree _ ⟨_,_,hrun,rfl⟩ () [_,_]
    (.udp (.raise () .connectionSucceeded),.nothing) [] rfl
  cases hraise rfl

end Ns3Helix.InheritedState
