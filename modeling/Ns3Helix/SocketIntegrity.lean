import Ns3Helix.SystemRealization

/-!
# The integrity of the registry

Until it is disposed of, a protocol keeps each of its sockets under the number
of its creation. A trampoline therefore finds its Helix socket alive, and an
event reaches the callback registered on that socket and no other.
-/

set_option autoImplicit false

namespace Ns3Helix.SocketIntegrity
open Ns3Helix.SocketInterface Ns3Helix.SocketImpl Ns3Helix.SocketMachine
open Ns3Helix.HelixSystem Ns3Helix.CounterMap Ns3Helix.SocketRegistry
open Ns3Helix.SocketHistory Ns3Helix.SystemProjection Ns3Helix.SystemRealization
open Ns3Helix.TransitionSystem

variable {P : Platform} {M : UdpMachine P ℕ}

def Disposes (c : System P M) (l : SystemLabel P) (p : ℕ) : Prop :=
  ∃ o, l.1 = .dispose o ∧ p ∈ c.wiring.world.objects.members o

def DisposedOf (tr : List (System P M × SystemLabel P)) (p : ℕ) : Prop :=
  ∃ e ∈ tr, Disposes e.1 e.2 p

variable {tr : List (System P M × SystemLabel P)} {c c' : System P M} {l : SystemLabel P} {p : ℕ}

theorem step_disposed (hstep : Step c l c') : p ∈ c'.disposed ↔ Disposes c l p := by
  have hc := step_undisposed hstep
  cases hstep with
  | dispose _ _ =>
    constructor
    · exact fun hp => ⟨_,rfl,hp⟩
    · rintro ⟨o,ho,hp⟩
      obtain rfl := SystemEvent.dispose.inj ho
      exact hp
  | created _ _ _ hs =>
    obtain ⟨_,q,n,_,_,rfl,rfl⟩ := createSocket_ok c hs
    have hnone : ((c.created q n).hold c.nextSocket).disposed = [] := hc
    simp [Disposes,hnone]
  | stack | socket | aborted | createUdpSocket | drop =>
    simp [Disposes,System.abort,System.newUdpSocket,System.drop,hc]

theorem run_disposed (hrun : Run Step (.initial M) tr c) : p ∈ c.disposed ↔ DisposedOf tr p := by
  induction hrun with
  | nil => simp [System.initial,DisposedOf]
  | snoc run last ih =>
    rw [step_disposed last]
    constructor
    · exact fun h => ⟨_,List.mem_append_right _ List.mem_cons_self,h⟩
    · rintro ⟨e,he,h⟩
      rcases List.mem_append.mp he with he | he
      · -- nothing happens behind a disposal
        have hp := ih.mpr ⟨e,he,h⟩
        rw [step_undisposed last] at hp
        cases hp
      · obtain rfl := List.mem_singleton.mp he
        exact h

structure Intact (tr : List (System P M × SystemLabel P)) (c : System P M) (p : ℕ) : Prop where
  index : (c.helix p).mSocketIndex.toNat = (createdBy tr p).length
  keys : ∀ k, k ∈ (c.helix p).mSockets ↔ k < (c.helix p).mSocketIndex
  entry : ∀ k : UInt64, (c.helix p).mSockets[k]? = ((createdBy tr p)[k.toNat]?).map some
  distinct : ∀ (k k' : UInt64) (s : ℕ), (c.helix p).mSockets[k]? = some (some s) →
    (c.helix p).mSockets[k']? = some (some s) → k = k'
  paired : ∀ (k k' : UInt64) (s s' u : ℕ), (c.helix p).mSockets[k]? = some (some s) →
    (c.helix p).mSockets[k']? = some (some s') →
    (c.sockets.socket s).mUdpSocket = some u → (c.sockets.socket s').mUdpSocket = some u → k = k'
  wrapped : ∀ (k : UInt64) (s : ℕ), (c.helix p).mSockets[k]? = some (some s) →
    ∃ u, (c.sockets.socket s).mUdpSocket = some u
  kept : ∀ l c', Step c l c' → ¬ Disposes c l p → ∀ (k : UInt64) (x : Option ℕ),
    (c.helix p).mSockets[k]? = some x → (c'.helix p).mSockets[k]? = some x
  owned : ∀ s ∈ createdBy tr p, ∃ k : UInt64, (c.helix p).mSockets[k]? = some (some s)

/-- A trampoline leads to the Helix socket of the UDP socket it is stored in,
which a registry keeps alive, and what is done with one socket does not reach
another. An event of a UDP socket reaches the callback that was last registered
on the Helix socket around it. -/
structure Isolated (tr : List (System P M × SystemLabel P)) (c : System P M) : Prop where
  home : ∀ u s, Carries (c.sockets.udp u) s →
    (c.sockets.socket s).mUdpSocket = some u ∧ ∃ p, s ∈ createdBy tr p
  owned : (∀ p, ¬ DisposedOf tr p) → (creations tr).length < UInt64.size →
    ∀ u s, Carries (c.sockets.udp u) s → c.Owned s
  others : ∀ l d s, SocketMachine.Step M c.sockets l d → ¬ On s l.1 → Untouched c.sockets d s
  events : ∀ u e d cb s e', SocketMachine.Step M c.sockets
    (.udp (.raise u e),.invoked cb (.helix s) e') d →
    (c.sockets.socket s).mUdpSocket = some u ∧ (c.sockets.socket s).kept e = some cb ∧ e' = e
  answers : ∀ u s e seen c', (c.sockets.socket s).mUdpSocket = some u →
    Step c (.socket (.udp (.raise u e)),.socket seen) c' →
    seen = (history s (socketLabels tr)).answer s e

/-- A registry that is not disposed of only grows. -/
theorem step_keeps {m : List (Option ℕ)} (h : Represents (c.helix p).mSockets
    (c.helix p).mSocketIndex m) (hstep : Step c l c') (hp : ¬ Disposes c l p) {k : UInt64}
    {x : Option ℕ} (hk : (c.helix p).mSockets[k]? = some x) :
    (c'.helix p).mSockets[k]? = some x := by
  cases hstep with
  | @stack e w _ _ hs =>
    rw [show ({ c with wiring := w } : System P M).helix p = w.world.helix p from rfl,
      (wiring_registries hs p).1]
    exact hk
  | socket _ _ _ => exact hk
  | created _ _ _ hs =>
    obtain ⟨_,q,n,hq,_,rfl,rfl⟩ := createSocket_ok c hs
    show ((c.created q n).helix p).mSockets[k]? = some x
    rw [created_helix]
    split
    next hpq =>
      subst hpq
      exact insert_keeps h _ hk
    next => exact hk
  | aborted _ _ _ _ => exact hk
  | createUdpSocket _ _ _ => exact hk
  | drop _ _ _ => exact hk
  | @dispose o _ _ =>
    have hsame : (c.dispose o).helix p = c.helix p := by
      show (c.wiring.world.dispose o).helix p = _
      rw [dispose_helix,if_neg fun hm => hp ⟨o,rfl,hm.1⟩]
      rfl
    rw [hsame]
    exact hk

theorem intact (h : Ledger tr c) (hpaired : Paired c) (hp : p ∉ c.disposed)
    (hlen : (createdBy tr p).length < UInt64.size) : Intact tr c p := by
  have hr := h.registry p hp hlen
  have hnodup : ((createdBy tr p).map some).Nodup :=
    (createdBy_nodup h p).map (Option.some_injective ℕ)
  have member : ∀ {k : UInt64} {s : ℕ}, (c.helix p).mSockets[k]? = some (some s) →
      s < c.nextSocket := by
    intro k s hk
    obtain ⟨s',hs',hss⟩ := List.mem_map.mp (mem_of_entry hr hk)
    obtain rfl := Option.some.inj hss
    have hmem : s' ∈ (creations tr).map Prod.snd := (List.filter_sublist.map _).subset hs'
    rw [h.numbered] at hmem
    exact List.mem_range.mp hmem
  refine ⟨by simpa using hr.size,represents_mem hr,fun k => ?_,
    fun k k' s => represents_injective hr hnodup,?_,?_,fun l c' hstep => ?_,fun s hs => ?_⟩
  · rw [hr.entry,List.getElem?_map]
  · intro k k' s s' u hk hk' hu hu'
    obtain rfl := hpaired.separate s s' u hu hu'
    exact represents_injective hr hnodup hk hk'
  · intro k s hk
    exact Option.isSome_iff_exists.mp ((hpaired.wrapped s).mpr (member hk))
  · exact fun hp' k x => step_keeps hr hstep hp'
  · exact represents_of_mem hr (List.mem_map_of_mem hs)

/-- An event on the UDP socket of a Helix socket is answered as the calls of the
application ask for. -/
theorem event_answered (hrun : Run Step (.initial M) tr c) {u s : ℕ} {e : Event}
    {seen : Seen P ℕ ℕ} (hu : (c.sockets.socket s).mUdpSocket = some u)
    (hstep : Step c (.socket (.udp (.raise u e)),.socket seen) c') :
    seen = (history s (socketLabels tr)).answer s e := by
  obtain ⟨f,_,hf,_,_,answered,_⟩ := step_answered hrun hstep
  exact answered s e (by rw [hf.owner s u hu])

theorem isolated (hrun : Run Step (.initial M) tr c) : Isolated tr c where
  home u s hc := by
    have hpaired := run_paired hrun
    exact ⟨hpaired.carries u s hc,carried_created (run_ledger hrun) hpaired hc⟩
  owned hdisposed hlen u s hc := by
    have hledger := run_ledger hrun
    obtain ⟨p,hp⟩ := carried_created hledger (run_paired hrun) hc
    have hnone : c.disposed = [] :=
      List.eq_nil_iff_forall_not_mem.mpr fun q hq => hdisposed q ((run_disposed hrun).mp hq)
    exact created_owned hledger hnone hlen hp
  others l d s hstep hon := by
    have hpaired := run_paired hrun
    exact step_untouched hpaired.echoing (fun g u hg hs => hpaired.separate g s u hg hs) hstep hon
  events u e d cb s e' hstep := by
    obtain ⟨_,t,_,hexec⟩ := hstep
    have hcarries : ∀ g, Carries ((c.sockets.withMachine t).udp u) g →
        ((c.sockets.withMachine t).socket g).mUdpSocket = some u := (run_paired hrun).carries u
    exact raise_reaches (c := c.sockets.withMachine t) hcarries hexec rfl
  answers _ _ _ _ _ := event_answered hrun

/-- However sockets are created, used and dropped: until `DoDispose` runs on it,
a protocol that has created fewer than 2^64 sockets holds each of them under the
number of its creation, after that none, and no socket meets another. -/
theorem registry_intact (hrun : Run Step (.initial M) tr c) (p : ℕ)
    (hlen : (createdBy tr p).length < UInt64.size) :
    (¬ DisposedOf tr p → Intact tr c p) ∧
      (DisposedOf tr p → c.typeOf p = some .helixL4Protocol → (c.helix p).mSockets = ∅) ∧
      Isolated tr c := by
  have hledger := run_ledger hrun
  refine ⟨fun hp => ?_,fun hp => ?_,isolated hrun⟩
  · exact intact hledger (run_paired hrun) (fun hp' => hp ((run_disposed hrun).mp hp')) hlen
  · exact hledger.emptied p ((run_disposed hrun).mpr hp)

/-- Two sockets are created, through the factory and directly. The reference to
the first is dropped, and it still gets its event. -/
theorem dropped_socket_kept : ∃ tr c,
    Run Step (.initial (arbitrary : UdpMachine .unit ℕ)) tr c ∧
    createdBy tr 2 = [0,1] ∧ c.held = [1] ∧
    socketLabels tr = [(.call (.helix 0) (.setRecvCallback (some ())),.nothing),
      (.udp (.return ⟨.void,()⟩),.returned (.helix 0) ⟨.void,()⟩),(.udp .wake,.nothing),
      (.udp (.raise 0 .recv),.invoked () (.helix 0) .recv)] ∧ Intact tr c 2 := by
  have wired := play_runs (.initial (arbitrary : UdpMachine .unit ℕ))
    ([.create .node,.create .udpSocketFactory,.aggregate 0 1,.proceed,.proceed,
      .addHelix 0 none] ++ List.replicate 10 .proceed) rfl rfl rfl
  have first := run_then wired (.createSocket (.factory 3),.created 0)
    (.created ⟨rfl,rfl,rfl⟩ rfl rfl rfl)
  have second := run_then first (.createSocket (.helix 2),.created 1)
    (.created ⟨rfl,rfl,rfl⟩ rfl rfl rfl)
  have registered := run_then second
    (.socket (.call (.helix 0) (.setRecvCallback (some ()))),.socket .nothing)
    (.socket ⟨rfl,rfl,rfl⟩ (.inl (by decide)) ⟨trivial,(),rfl,rfl⟩)
  have returned := run_then registered
    (.socket (.udp (.return ⟨.void,()⟩)),.socket (.returned (.helix 0) ⟨.void,()⟩))
    (.socket ⟨rfl,rfl,rfl⟩ trivial ⟨trivial,(),trivial,rfl⟩)
  have dropped := run_then returned (.drop 0,.nothing) (.drop ⟨rfl,rfl,rfl⟩ rfl (by decide))
  have awake := run_then dropped (.socket (.udp .wake),.socket .nothing)
    (.socket ⟨rfl,rfl,rfl⟩ trivial ⟨trivial,(),trivial,rfl⟩)
  have hrun := run_then awake
    (.socket (.udp (.raise 0 .recv)),.socket (.invoked () (.helix 0) .recv))
    (.socket ⟨rfl,rfl,rfl⟩ trivial ⟨trivial,(),trivial,rfl⟩)
  refine ⟨_,_,hrun,rfl,rfl,rfl,(registry_intact hrun 2 (by decide)).1 fun h => ?_⟩
  cases (run_disposed hrun).mpr h

end Ns3Helix.SocketIntegrity
