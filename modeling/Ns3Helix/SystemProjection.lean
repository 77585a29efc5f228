import Ns3Helix.NullCallback
import Ns3Helix.SocketRegistry
import Ns3Helix.SocketSimulation
import Ns3Helix.SocketTransparency

/-!
# The sockets of a running system

The machine of sockets starts with a wrapped socket for every number there
is. In the system they come into being one by one, through `CreateSocket`,
with fields the methods never read. What happens to the sockets in a run of
the system is a run of the machine all the same, and what holds of the
machine's runs holds of the system.
-/

set_option autoImplicit false

namespace Ns3Helix.SystemProjection
open Ns3Helix.SocketInterface Ns3Helix.SocketImpl Ns3Helix.SocketMachine
open Ns3Helix.HelixSystem Ns3Helix.SocketRegistry Ns3Helix.SocketSimulation
open Ns3Helix.SocketTransparency Ns3Helix.SocketHistory Ns3Helix.NullCallback
open Ns3Helix.TransitionSystem

variable {P : Platform} {M : UdpMachine P ℕ}

def socketLabel : SystemLabel P → Option (Label P ℕ ℕ)
  | (.socket a,.socket seen) => some (a,seen)
  | _ => none

def socketLabels (tr : List (System P M × SystemLabel P)) : List (Label P ℕ ℕ) :=
  (labels tr).filterMap socketLabel

variable {tr : List (System P M × SystemLabel P)} {c c' : System P M} {l : SystemLabel P}
  {f : ℕ ↪ ℕ} {d : Config P ℕ ℕ M}

structure Fits (f : ℕ ↪ ℕ) (c : System P M) : Prop where
  owner : ∀ s u, (c.sockets.socket s).mUdpSocket = some u → f s = u
  later : ∀ s, c.nextSocket ≤ s → c.nextUdpSocket ≤ f s

def Ordered (c : System P M) : Prop := ∀ s s' u u', (c.sockets.socket s).mUdpSocket = some u →
  (c.sockets.socket s').mUdpSocket = some u' → s < s' → u < u'

theorem ordered_created (h : Ordered c) (hpaired : Paired c) (p n : ℕ) :
    Ordered (c.created p n) := by
  intro s s' u u' hs hs' hlt
  rw [created_socket] at hs hs'
  have below : ∀ {t v}, (c.sockets.socket t).mUdpSocket = some v → t < c.nextSocket :=
    fun {t v} hv => (hpaired.wrapped t).mp (Option.isSome_iff_exists.mpr ⟨v,hv⟩)
  split at hs'
  next hnew' =>
    obtain rfl := Option.some.inj hs'
    rw [if_neg (by omega)] at hs
    exact hpaired.allocated s u hs
  next =>
    have hborn := below hs'
    rw [if_neg (by omega)] at hs
    exact h s s' u u' hs hs' hlt

theorem step_ordered (h : Ordered c) (hpaired : Paired c) (hstep : Step c l c') : Ordered c' := by
  cases hstep with
  | stack | aborted | createUdpSocket | drop | dispose => exact h
  | socket _ _ hs =>
    obtain ⟨hsocket,_,_⟩ := step_after hpaired.echoing hs
    intro s s' u u' hu hu'
    simp only [hsocket,socketAfter_udpSocket] at hu hu'
    exact h s s' u u' hu hu'
  | created _ _ _ hs =>
    obtain ⟨_,p,n,_,_,rfl,rfl⟩ := createSocket_ok c hs
    exact ordered_created h hpaired p n

theorem run_ordered (hrun : Run Step (.initial M) tr c) : Ordered c := by
  induction hrun with
  | nil =>
    intro s s' u u' hs
    cases hs
  | snoc run last ih => exact step_ordered ih (run_paired run) last

theorem fits_exists (h : Paired c) (hordered : Ordered c) :
    ∃ f : ℕ ↪ ℕ, StrictMono f ∧ Fits f c := by
  let name : ℕ → ℕ := fun s => ((c.sockets.socket s).mUdpSocket).getD (c.nextUdpSocket+s)
  have owned : ∀ {s u}, (c.sockets.socket s).mUdpSocket = some u → name s = u := by
    intro s u hu
    simp [name,hu]
  have unowned : ∀ {s}, (c.sockets.socket s).mUdpSocket = none → name s = c.nextUdpSocket+s := by
    intro s hs
    simp [name,hs]
  have born : ∀ {s}, (c.sockets.socket s).mUdpSocket = none ↔ c.nextSocket ≤ s := by
    intro s
    rw [← Option.not_isSome_iff_eq_none,h.wrapped s]
    exact Nat.not_lt
  have increasing : StrictMono name := by
    intro s s' hlt
    cases hs : (c.sockets.socket s).mUdpSocket with
    | none =>
      have hs' : (c.sockets.socket s').mUdpSocket = none := by
        apply born.mpr
        have hle := born.mp hs
        omega
      rw [unowned hs,unowned hs']
      omega
    | some u =>
      cases hs' : (c.sockets.socket s').mUdpSocket with
      | none =>
        rw [owned hs,unowned hs']
        have hu := h.allocated s u hs
        omega
      | some u' =>
        rw [owned hs,owned hs']
        exact hordered s s' u u' hs hs' hlt
  refine ⟨⟨name,increasing.injective⟩,increasing,fun s u => owned,fun s hs => ?_⟩
  show c.nextUdpSocket ≤ name s
  rw [unowned (born.mpr hs)]
  exact Nat.le_add_right _ _

theorem fits_back (hpaired : Paired c) (hstep : Step c l c') (h : Fits f c') : Fits f c := by
  cases hstep with
  | stack | aborted | drop | dispose => exact ⟨h.owner,h.later⟩
  | createUdpSocket _ _ _ => exact ⟨h.owner,fun s hs => Nat.le_of_succ_le (h.later s hs)⟩
  | socket _ _ hs =>
    obtain ⟨hsocket,_,_⟩ := step_after hpaired.echoing hs
    refine ⟨fun s u hu => h.owner s u ?_,h.later⟩
    rw [← socketAfter_udpSocket,← hsocket] at hu
    exact hu
  | created _ _ _ hs =>
    obtain ⟨_,p,n,_,_,rfl,rfl⟩ := createSocket_ok c hs
    have new : f c.nextSocket = c.nextUdpSocket := by
      apply h.owner
      show ((c.created p n).sockets.socket c.nextSocket).mUdpSocket = some c.nextUdpSocket
      rw [created_socket,if_pos rfl]
      rfl
    refine ⟨fun s u hu => h.owner s u ?_,fun s hs => ?_⟩
    · have hlt : s < c.nextSocket := (hpaired.wrapped s).mp (Option.isSome_iff_exists.mpr ⟨u,hu⟩)
      show ((c.created p n).sockets.socket s).mUdpSocket = some u
      rw [created_socket,if_neg (by omega)]
      exact hu
    · rcases Nat.eq_or_lt_of_le hs with rfl | hlt
      · exact new.ge
      · exact Nat.le_of_succ_le (h.later s hlt)

def Numbered (c : System P M) : Prop := ∀ s, c.Alive s → s < c.nextSocket

theorem numbered_initial : Numbered (.initial M) := by
  rintro s (hs | ⟨p,k,hk⟩)
  · cases hs
  · simp [System.initial,System.helix,StackMachine.Wiring.initial,HelixStack.World.initial,
      HelixStack.HelixL4Protocol.fresh] at hk

theorem numbered_same (h : Numbered c) (hheld : ∀ s ∈ c'.held, s ∈ c.held)
    (hnext : c'.nextSocket = c.nextSocket)
    (hsame : ∀ p, (c'.helix p).mSockets = (c.helix p).mSockets) : Numbered c' := by
  rintro s (hs | ⟨p,k,hk⟩)
  · rw [hnext]
    exact h s (.inl (hheld s hs))
  · rw [hsame] at hk
    rw [hnext]
    exact h s (.inr ⟨p,k,hk⟩)

theorem numbered_created (h : Numbered c) (p n : ℕ) :
    Numbered ((c.created p n).hold c.nextSocket) := by
  have old : ∀ s, c.Alive s → s < c.nextSocket+1 := fun s hs => Nat.lt_succ_of_lt (h s hs)
  rintro s (hs | ⟨q,k,hk⟩)
  · rcases List.mem_cons.mp hs with rfl | hs
    · exact Nat.lt_succ_self _
    · exact old s (.inl hs)
  · have hk' : ((c.created p n).helix q).mSockets[k]? = some (some s) := hk
    rw [created_helix] at hk'
    split at hk'
    next hq =>
      subst hq
      rw [HelixStack.HelixL4Protocol.addSocket,Std.HashMap.getElem?_insert] at hk'
      split at hk'
      · obtain rfl := Option.some.inj (Option.some.inj hk')
        exact Nat.lt_succ_self _
      · exact old s (.inr ⟨q,k,hk'⟩)
    next => exact old s (.inr ⟨q,k,hk'⟩)

theorem numbered_disposed (h : Numbered c) (o : ℕ) : Numbered (c.dispose o) := by
  rintro s (hs | ⟨p,k,hk⟩)
  · exact h s (.inl hs)
  · have hk' : ((c.wiring.world.dispose o).helix p).mSockets[k]? = some (some s) := hk
    rw [dispose_helix] at hk'
    split at hk'
    · simp [HelixStack.HelixL4Protocol.doDispose] at hk'
    · exact h s (.inr ⟨p,k,hk'⟩)

theorem step_numbered (h : Numbered c) (hstep : Step c l c') : Numbered c' := by
  cases hstep with
  | stack _ _ hs => exact numbered_same h (fun _ => id) rfl fun p => (wiring_registries hs p).1
  | socket | aborted | createUdpSocket =>
    exact numbered_same h (fun _ => id) rfl fun _ => rfl
  | created _ _ _ hs =>
    obtain ⟨_,p,n,_,_,rfl,rfl⟩ := createSocket_ok c hs
    exact numbered_created h p n
  | drop _ _ _ => exact numbered_same h (fun _ => List.mem_of_mem_erase) rfl fun _ => rfl
  | dispose _ _ => exact numbered_disposed h _

abbrev Born (c : System P M) : ℕ → Prop := fun s => s < c.nextSocket

/-- The machine has the sockets of the system under the same names, and the
others as they are at the start. -/
structure Projects (f : ℕ ↪ ℕ) (c : System P M) (d : Config P ℕ ℕ M) : Prop where
  paired : Paired c
  numbered : Numbered c
  similar : Similar Eq (Born c) c.sockets d
  stack : ∀ g ∈ c.sockets.stack, Frame.Within (Born c) g
  unborn : ∀ s, c.nextSocket ≤ s → d.socket s = HelixSocketImpl.fresh.setUdpSocket (some (f s))

theorem projects_initial (f : ℕ ↪ ℕ) :
    Projects f (.initial M) (SocketMachine.initial M f) where
  paired := paired_initial
  numbered := numbered_initial
  similar := ⟨rfl,rfl,rfl,rfl,fun s hs => absurd hs (Nat.not_lt_zero s)⟩
  stack _ hg := by cases hg
  unborn _ _ := rfl

theorem projects_inhabited (h : Projects f c d) : Inhabited (Born c) c.sockets where
  stack := h.stack
  owner u s target ht g hg := by
    have hu := h.paired.carries u g ⟨s,target,ht,hg⟩
    exact (h.paired.wrapped g).mp (Option.isSome_iff_exists.mpr ⟨u,hu⟩)

theorem projects_owner (h : Projects f c d) (hf : Fits f c) (s : ℕ) :
    (d.socket s).mUdpSocket = some (f s) := by
  rcases Nat.lt_or_ge s c.nextSocket with hlt | hge
  · obtain ⟨u,hu⟩ := Option.isSome_iff_exists.mp ((h.paired.wrapped s).mpr hlt)
    rw [← (h.similar.socket s hlt).udpSocket,hu,hf.owner s u hu]
  · rw [h.unborn s hge]
    rfl

theorem projects_admits (h : Projects f c d) (hf : Fits f c) {a : Action P ℕ ℕ}
    (hrefers : c.Refers a) (hadmits : c.sockets.Admits a) : d.Admits a := by
  have free : ∀ u, u < c.nextUdpSocket → (∀ s, (c.sockets.socket s).mUdpSocket ≠ some u) →
      ∀ s, (d.socket s).mUdpSocket ≠ some u := by
    intro u hu hnone s hs
    rcases Nat.lt_or_ge s c.nextSocket with hlt | hge
    · rw [← (h.similar.socket s hlt).udpSocket] at hs
      exact hnone s hs
    · obtain rfl := Option.some.inj ((projects_owner h hf s).symm.trans hs)
      exact Nat.lt_irrefl _ (Nat.lt_of_lt_of_le hu (hf.later s hge))
  cases a with
  | call s o =>
    cases s with
    | helix s => trivial
    | udp u => exact free u hrefers hadmits
  | inherited s i =>
    cases s with
    | helix s => trivial
    | udp u => exact free u hrefers hadmits
  | callbackReturn => trivial
  | udp move => trivial

theorem refers_onLive (h : Numbered c) {a : Action P ℕ ℕ} (hrefers : c.Refers a) :
    OnLive (Born c) a := by
  cases a with
  | call s o =>
    cases s with
    | helix s => exact h s hrefers
    | udp u => trivial
  | inherited s i =>
    cases s with
    | helix s => exact h s hrefers
    | udp u => trivial
  | callbackReturn => trivial
  | udp move => trivial

theorem socketAfter_unborn {live : ℕ → Prop} {a : Action P ℕ ℕ} (ha : OnLive live a) {s : ℕ}
    (hs : ¬ live s) : d.socketAfter a s = d.socket s := by
  cases a with
  | call r o =>
    cases r with
    | udp u => rfl
    | helix g =>
      have hne : s ≠ g := by
        rintro rfl
        exact hs ha
      simp only [Config.socketAfter]
      cases (d.socket g).mUdpSocket with
      | none => rfl
      | some u => simp [hne]
  | inherited r i =>
    cases r with
    | udp u => rfl
    | helix g =>
      have hne : s ≠ g := by
        rintro rfl
        exact hs ha
      simp [Config.socketAfter,hne]
  | callbackReturn => rfl
  | udp move => rfl

theorem similar_machine (h : Similar Eq (Born c) c.sockets d) (s : M.State) :
    Similar Eq (Born c) (c.sockets.withMachine s) (d.withMachine s) :=
  { h with machine := rfl }

/-- Both sides make the same step. -/
theorem projects_exec (h : Projects f c d) {a : Action P ℕ ℕ} (hrefers : c.Refers a)
    (hadmits : c.sockets.Admits a) {s : M.State} (hmoves : Moves M c.sockets.machine a s)
    {r : Config P ℕ ℕ M × Seen P ℕ ℕ} (hexec : (c.sockets.withMachine s).exec a = some r) :
    ∃ q, (d.withMachine s).exec a = some q ∧ r.2 = q.2 ∧
      Projects f { c with sockets := r.1 } q.1 := by
  have hlive := refers_onLive h.numbered hrefers
  have hinhabited := projects_inhabited h
  obtain ⟨q,hq,hsimilar,hseen,hstack⟩ := exec_similar respects_eq (similar_machine h.similar s)
    ⟨hinhabited.stack,hinhabited.owner⟩ hlive hexec
  have hpaired : Paired { c with sockets := r.1 } :=
    paired_socket h.paired ⟨hadmits,s,hmoves,hexec⟩
  refine ⟨q,hq,hseen,hpaired,?_,hsimilar,hstack,fun g hg => ?_⟩
  · exact numbered_same h.numbered (fun _ => id) rfl fun _ => rfl
  · have hecho : (d.withMachine s).Echoing := by
      intro x hx
      rw [show (d.withMachine s).stack = c.sockets.stack from h.similar.stack.symm] at hx
      exact h.paired.echoing x hx
    rw [(Config.exec_after hecho hq).socket,socketAfter_unborn hlive (Nat.not_lt.mpr hg)]
    exact h.unborn g hg

theorem projects_socket (h : Projects f c d) (hf : Fits f c) {a : Action P ℕ ℕ} {seen : Seen P ℕ ℕ}
    {x : Config P ℕ ℕ M} (hrefers : c.Refers a)
    (hstep : SocketMachine.Step M c.sockets (a,seen) x) :
    ∃ y, SocketMachine.Step M d (a,seen) y ∧ Projects f { c with sockets := x } y := by
  obtain ⟨hadmits,s,hmoves,hexec⟩ := hstep
  obtain ⟨q,hq,hseen,hprojects⟩ := projects_exec h hrefers hadmits hmoves hexec
  refine ⟨q.1,⟨projects_admits h hf hrefers hadmits,s,h.similar.machine ▸ hmoves,?_⟩,hprojects⟩
  rw [hq,show seen = q.2 from hseen]

theorem projects_created (h : Projects f c d) (p n : ℕ)
    (hf : Fits f ((c.created p n).hold c.nextSocket)) :
    Projects f ((c.created p n).hold c.nextSocket) d where
  paired := paired_same (paired_created h.paired p n) ⟨rfl,rfl,Nat.le_refl _⟩
  numbered := numbered_created h.numbered p n
  similar := by
    refine ⟨h.similar.machine,h.similar.udp,h.similar.stack,h.similar.printed,fun s hs => ?_⟩
    show Alike ((c.created p n).sockets.socket s) (d.socket s)
    rw [created_socket]
    split
    next hnew =>
      subst hnew
      have hname : f c.nextSocket = c.nextUdpSocket := by
        apply hf.owner
        show ((c.created p n).sockets.socket c.nextSocket).mUdpSocket = some c.nextUdpSocket
        rw [created_socket,if_pos rfl]
        rfl
      rw [h.unborn c.nextSocket (Nat.le_refl _),hname]
      exact ⟨rfl,rfl,rfl,rfl⟩
    next hold => exact h.similar.socket s (by have : s < c.nextSocket+1 := hs; omega)
  stack g hg := by
    have hwithin := h.stack g hg
    have grows : ∀ s, Born c s → Born ((c.created p n).hold c.nextSocket) s :=
      fun s hs => Nat.lt_succ_of_lt hs
    cases g with
    | udp u t caller =>
      cases caller with
      | none => trivial
      | some w => exact grows _ hwithin
    | app caller =>
      cases caller with
      | none => trivial
      | some w => exact grows _ hwithin
    | spontaneous => trivial
    | dead => trivial
  unborn s hs := h.unborn s (Nat.le_of_succ_le hs)

theorem projects_same (h : Projects f c d) (hstep : Step c l c')
    (hsockets : c'.sockets = c.sockets) (hnext : c'.nextSocket = c.nextSocket) :
    Projects f c' d where
  paired := step_paired h.paired hstep
  numbered := step_numbered h.numbered hstep
  similar := by
    rw [hsockets]
    exact { h.similar with socket := fun s hs => h.similar.socket s (by rwa [Born,← hnext]) }
  stack g hg := by
    rw [hsockets] at hg
    rw [show Born c' = Born c from funext fun s => by rw [Born,hnext]]
    exact h.stack g hg
  unborn s hs := h.unborn s (hnext ▸ hs)

theorem step_socketLabel {k : Label P ℕ ℕ} (hstep : Step c l c') (hl : socketLabel l = some k) :
    ∃ x, c.Refers k.1 ∧ SocketMachine.Step M c.sockets k x ∧ c' = { c with sockets := x } := by
  cases hstep with
  | socket _ refers hs =>
    obtain rfl := Option.some.inj hl
    exact ⟨_,refers,hs,rfl⟩
  | stack | created | aborted | createUdpSocket | drop | dispose => cases hl

/-- The machine of sockets follows the system and does not notice its other
events. -/
theorem system_refinement (f : ℕ ↪ ℕ) :
    Refinement (Step (M := M)) (SocketMachine.Step M) socketLabel
      (fun c => Paired c → Fits f c) (Projects f) where
  back hstep hf hpaired := fits_back hpaired hstep (hf (step_paired hpaired hstep))
  shown h hstep hf hl := by
    obtain ⟨x,hrefers,hs,rfl⟩ := step_socketLabel hstep hl
    have hfits := fits_back h.paired hstep (hf (step_paired h.paired hstep))
    exact projects_socket h hfits hrefers hs
  hidden h hstep hf hl := by
    cases id hstep with
    | stack | aborted | createUdpSocket | drop | dispose => exact projects_same h hstep rfl rfl
    | socket _ _ _ => cases hl
    | created _ _ _ hs =>
      obtain ⟨_,p,n,_,_,rfl,rfl⟩ := createSocket_ok _ hs
      exact projects_created h p n (hf (step_paired h.paired hstep))

theorem run_projects_named (hrun : Run Step (.initial M) tr c) (hf : Fits f c) :
    ∃ tr' d, Run (SocketMachine.Step M) (SocketMachine.initial M f) tr' d ∧
      labels tr' = socketLabels tr ∧ Projects f c d :=
  refinement_run (system_refinement f) (projects_initial f) hrun fun _ => hf

end Ns3Helix.SystemProjection
