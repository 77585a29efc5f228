import Ns3Helix.SocketRegistry

/-!
# Null pointers during set-up

`NotifyNewAggregate` follows the node of its aggregate before it tests it, and
`CreateSocket` the UDP socket factory of its node without a test. All other
pointers that set-up follows are set whenever they are followed.
-/

set_option autoImplicit false

namespace Ns3Helix.SetUpSafety
open Ns3Helix.SocketInterface Ns3Helix.SocketImpl Ns3Helix.SocketMachine
open Ns3Helix.HelixSystem Ns3Helix.SocketRegistry Ns3Helix.TransitionSystem
open Ns3Helix.HelixStack (Abort TypeId)
open Ns3Helix.StackWiring

variable {P : Platform} {M : UdpMachine P ℕ}

/-- Before disposal, and not in the middle of an event. -/
structure Settled (c : System P M) : Prop where
  undisposed : c.disposed = []
  quiet : c.wiring.aborted = none → c.wiring.tasks = []

/-- No null pointer was dereferenced, and every `CreateSocket` has returned a
socket whose UDP socket is set. -/
structure Safe (tr : List (System P M × SystemLabel P)) (c : System P M) : Prop where
  pointers : c.wiring.aborted ≠ some .nullDereference
  sockets : ∀ e ∈ tr, ∀ r, e.2.1 = .createSocket r →
    ∃ s, e.2.2 = .created s ∧ (c.sockets.socket s).mUdpSocket.isSome

/-- There is a UDP socket factory in the aggregate `CreateSocket` is called on,
and a protocol it is called on directly has been set up for its node. -/
def Equipped (pre : List (System P M × SystemLabel P)) (c : System P M) : Creator → Prop
  | .helix p => SetUp (wiringTrace pre) c.wiring.world p ∧
      (c.getObject p .udpSocketFactory).isSome
  | .factory f => (c.getObject f .udpSocketFactory).isSome

def AllEquipped (tr : List (System P M × SystemLabel P)) : Prop :=
  ∀ pre c r x post, tr = pre++(c,(.createSocket r,x))::post → Equipped pre c r

variable {tr : List (System P M × SystemLabel P)} {c c' : System P M}

/-- A factory has its protocol, and that its node, as soon as it can be found. -/
theorem factory_served {ts : List (StackMachine.Wiring × StackMachine.Event)}
    {ss : List StackMachine.Stage} (h : Sound ts c.wiring ss) {f : ℕ}
    (hf : c.typeOf f = some .helixSocketFactory) : ∃ p n, (c.factory f).mHelix = some p ∧
      (c.helix p).mNode = some n ∧ c.getObject n = c.getObject f := by
  obtain ⟨p,hp,_,hfp,hset,_⟩ := h.between.wired.owner f hf
  obtain ⟨n,hn⟩ := Option.ne_none_iff_exists'.mp hset
  obtain ⟨_,hmem,_⟩ := h.between.wired.node p n hn
  have hfn := c.wiring.world.objects.mem_trans hp hmem
  exact ⟨p,n,hfp,hn,funext fun t => c.wiring.world.objects.getObject_same t hfn⟩

theorem ready_iff (h : Sound (wiringTrace tr) c.wiring []) {r : Creator} (hr : c.Provides r) :
    c.Ready r ↔ Equipped tr c r := by
  cases r with
  | helix p =>
    have known : ∀ n, (c.helix p).mNode = some n → c.getObject n = c.getObject p := fun n hn => by
      obtain ⟨_,hmem,_⟩ := h.between.wired.node p n hn
      exact funext fun t => c.wiring.world.objects.getObject_same t hmem
    constructor
    · rintro ⟨q,n,f,hq,hn,hf⟩
      obtain rfl : p = q := Option.some.inj hq
      refine ⟨h.origin.set p n hn,?_⟩
      rw [← known n hn,hf]
      rfl
    · rintro ⟨hset,hf⟩
      obtain ⟨n,hn⟩ := Option.ne_none_iff_exists'.mp ((settled_setUp h hr).mp hset)
      obtain ⟨f,hf⟩ := Option.isSome_iff_exists.mp hf
      exact ⟨p,n,f,rfl,hn,by rw [known n hn,hf]⟩
  | factory f =>
    obtain ⟨p,n,hp,hn,hsame⟩ := factory_served h hr
    constructor
    · rintro ⟨q,m,u,hq,hm,hu⟩
      obtain rfl : p = q := Option.some.inj (hp.symm.trans hq)
      obtain rfl := Option.some.inj (hn.symm.trans hm)
      rw [hsame] at hu
      exact Option.isSome_iff_exists.mpr ⟨u,hu⟩
    · intro hu
      obtain ⟨u,hu⟩ := Option.isSome_iff_exists.mp hu
      exact ⟨p,n,u,hp,hn,by rw [hsame]; exact hu⟩

theorem creator_idle {r : Creator} {x : SystemResult P} (h : Step c (.createSocket r,x) c') :
    c.Idle ∧ c.Provides r ∧
      ((∃ s, x = .created s) ∨ ¬ c.Ready r) := by
  cases h with
  | created idle _ provides _ => exact ⟨idle,provides,.inl ⟨_,rfl⟩⟩
  | aborted idle _ provides h => exact ⟨idle,provides,.inr (createSocket_error c h).1⟩

/-- Every `CreateSocket` of a run, seen from the state it is called in. -/
theorem creation_at {pre post : List (System P M × SystemLabel P)} {t : System P M} {r : Creator}
    {x : SystemResult P} (hrun : Run Step (.initial M) (pre++(t,(.createSocket r,x))::post) c) :
    (t.Ready r ↔ Equipped pre t r) ∧ ((∃ s, x = .created s) ∨ ¬ t.Ready r) := by
  obtain ⟨hpre,t',hstep,_⟩ := run_at pre post hrun
  obtain ⟨idle,provides,hout⟩ := creator_idle hstep
  obtain ⟨sound,_⟩ := idle_sound (run_status hpre idle.undisposed) idle
  exact ⟨ready_iff sound provides,hout⟩

theorem allReady_wiring (c : System P M)
    (ts : List (StackMachine.Wiring × StackMachine.Event)) :
    AllReady (ts.map fun x => ({ c with wiring := x.1 },(.stack x.2,.nothing))) := by
  intro e he r hr
  obtain ⟨x,_,rfl⟩ := List.mem_map.mp he
  cases hr

theorem allReady_iff (hrun : Run Step (.initial M) tr c) : AllReady tr ↔ AllEquipped tr := by
  constructor
  · rintro ready pre t r x post rfl
    exact (creation_at hrun).1.mp (ready (t,(.createSocket r,x)) (by simp) r rfl)
  · rintro equipped ⟨t,e,x⟩ hmem r hr
    obtain rfl : e = .createSocket r := hr
    obtain ⟨pre,post,rfl⟩ := List.append_of_mem hmem
    exact (creation_at hrun).1.mpr (equipped pre t r x post rfl)

theorem created_wrapped (hrun : Run Step (.initial M) tr c) {e : System P M × SystemLabel P}
    (he : e ∈ tr) {r : Creator} {s : ℕ} (hr : e.2 = (.createSocket r,.created s)) :
    (c.sockets.socket s).mUdpSocket.isSome := by
  have hmem : (e.1.serves r,s) ∈ creations tr := List.mem_filterMap.mpr ⟨e,he,by rw [hr]⟩
  have hrange : s ∈ List.range c.nextSocket := by
    rw [← (run_ledger hrun).numbered]
    exact List.mem_map_of_mem (f := Prod.snd) hmem
  exact ((run_paired hrun).wrapped s).mpr (List.mem_range.mp hrange)

/-- Set-up dereferences no null pointer exactly if no aggregate with a Helix
protocol is left without a node, and `CreateSocket` is only called where there
is a UDP socket factory. -/
theorem set_up_safe_iff (hrun : Run Step (.initial M) tr c) (hc : Settled c) :
    Safe tr c ↔ ¬ Stranded (wiringTrace tr) ∧ AllEquipped tr := by
  rw [← allReady_iff hrun]
  have safe : AllReady tr → c.wiring.aborted ≠ some .nullDereference → Safe tr c := by
    rintro ready pointers
    refine ⟨pointers,fun ⟨t,e,x⟩ he r hr => ?_⟩
    obtain rfl : e = .createSocket r := hr
    have hready := ready _ he r rfl
    have hrun' := hrun
    obtain ⟨pre,post,rfl⟩ := List.append_of_mem he
    obtain ⟨s,rfl⟩ := (creation_at hrun').2.resolve_right fun hnot => hnot hready
    exact ⟨s,rfl,created_wrapped hrun' he rfl⟩
  obtain ⟨course,ready⟩ | ⟨reason,cause⟩ := run_status hrun hc.undisposed
  · obtain ⟨ss,sound⟩ | ⟨stranded,reason⟩ | ⟨_,homed,state⟩ := course
    · have halive := sound.between.alive
      obtain rfl := idle_stages sound.between (hc.quiet halive)
      have hsafe := safe ready (by rw [halive]; simp)
      exact ⟨fun _ => ⟨(idle_housed sound).1,ready⟩,fun _ => hsafe⟩
    · exact ⟨fun hsafe => absurd reason hsafe.pointers,fun h => absurd stranded h.1⟩
    · have hreason : c.wiring.aborted = some .multipleAggregation := by
        obtain ⟨n,helix,halive,tasks,_⟩ | ⟨reason⟩ := state
        · cases tasks.symm.trans (hc.quiet halive)
        · exact reason
      have hsafe := safe ready (by rw [hreason]; simp)
      exact ⟨fun _ => ⟨homed,ready⟩,fun _ => hsafe⟩
  · exact ⟨fun hsafe => absurd reason hsafe.pointers,fun h => absurd h.2 cause⟩

/-- A protocol is grouped with `Ipv4` before it has a node; and a node without
UDP is given a Helix protocol and asked for a socket. -/
theorem set_up_crashes :
    (∃ tr c, Run Step (.initial (.silent : UdpMachine .unit ℕ)) tr c ∧ Settled c ∧
      labels tr = [(.stack (.create .ipv4),.nothing),(.stack (.create .helixL4Protocol),.nothing),
        (.stack (.aggregate 0 1),.nothing),(.stack .proceed,.nothing),
        (.stack .proceed,.nothing)] ∧ ¬ Safe tr c) ∧
    ∃ tr c t, Run Step (.initial (.silent : UdpMachine .unit ℕ))
      (tr++[(t,(.createSocket (.factory 2),.aborted .nullDereference))]) c ∧ Settled c ∧
      t.getObject 0 .helixSocketFactory = some 2 ∧
      ¬ Safe (tr++[(t,(.createSocket (.factory 2),.aborted .nullDereference))]) c := by
  constructor
  · have hrun := play_runs (.initial (.silent : UdpMachine .unit ℕ))
      [.create .ipv4,.create .helixL4Protocol,.aggregate 0 1,.proceed,.proceed] rfl rfl rfl
    exact ⟨_,_,hrun,⟨rfl,fun h => by cases h⟩,rfl,fun hsafe => hsafe.pointers rfl⟩
  · have wired := play_runs (.initial (.silent : UdpMachine .unit ℕ))
      ([.create .node,.addHelix 0 none] ++ List.replicate 8 .proceed) rfl rfl rfl
    have hrun := run_then wired (.createSocket (.factory 2),.aborted .nullDereference)
      (.aborted ⟨rfl,rfl,rfl⟩ rfl rfl rfl)
    exact ⟨_,_,_,hrun,⟨rfl,fun h => by cases h⟩,rfl,fun hsafe => hsafe.pointers rfl⟩

/-- A node with UDP is given a Helix protocol and asked for a socket. -/
theorem equipped_node_safe : ∃ tr c t, Run Step (.initial (.silent : UdpMachine .unit ℕ))
    (tr++[(t,(.createSocket (.factory 3),.created 0))]) c ∧
    Safe (tr++[(t,(.createSocket (.factory 3),.created 0))]) c := by
  have wired := play_runs (.initial (.silent : UdpMachine .unit ℕ))
    ([.create .node,.create .udpSocketFactory,.aggregate 0 1,.proceed,.proceed,
      .addHelix 0 none] ++ List.replicate 10 .proceed) rfl rfl rfl
  have hrun := run_then wired (.createSocket (.factory 3),.created 0)
    (.created ⟨rfl,rfl,rfl⟩ rfl rfl rfl)
  refine ⟨_,_,_,hrun,(set_up_safe_iff hrun ⟨rfl,fun _ => rfl⟩).mpr ⟨by decide,?_⟩⟩
  rw [← allReady_iff hrun,allReady_snoc]
  refine ⟨allReady_wiring _ _,fun r hr => ?_⟩
  cases hr
  exact ⟨2,0,1,rfl,rfl,rfl⟩

end Ns3Helix.SetUpSafety
