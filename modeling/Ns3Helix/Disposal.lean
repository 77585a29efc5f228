import Ns3Helix.SystemSteps

/-!
# What disposal releases

References own what they point to. `DoDispose` clears the node and the
registry of a protocol and the protocol of a factory, but a down target is a
callback that owns its IP layer, and those of a protocol are not reset.
-/

set_option autoImplicit false

namespace Ns3Helix.Disposal
open Ns3Helix.SocketInterface Ns3Helix.SocketImpl Ns3Helix.SocketMachine
open Ns3Helix.HelixSystem Ns3Helix.TransitionSystem
open Ns3Helix.HelixStack (TypeId World target)
open Ns3Helix.StackInvariant Ns3Helix.StackWiring

variable {P : Platform} {M : UdpMachine P ℕ}

inductive Resource
  | object (o : ℕ)
  | socket (s : ℕ)
  | udpSocket (u : ℕ)
  deriving DecidableEq, Repr

inductive Owns (c : System P M) : Resource → Resource → Prop
  | node {h n : ℕ} (type : c.typeOf h = some .helixL4Protocol)
      (field : (c.helix h).mNode = some n) : Owns c (.object h) (.object n)
  | sockets {h s : ℕ} {k : UInt64} (type : c.typeOf h = some .helixL4Protocol)
      (field : (c.helix h).mSockets[k]? = some (some s)) : Owns c (.object h) (.socket s)
  | downTarget {h v : ℕ} (type : c.typeOf h = some .helixL4Protocol)
      (field : (c.helix h).mDownTarget = some v) : Owns c (.object h) (.object v)
  | downTarget6 {h v : ℕ} (type : c.typeOf h = some .helixL4Protocol)
      (field : (c.helix h).mDownTarget6 = some v) : Owns c (.object h) (.object v)
  | helix {f h : ℕ} (type : c.typeOf f = some .helixSocketFactory)
      (field : (c.factory f).mHelix = some h) : Owns c (.object f) (.object h)
  | socketNode {s n : ℕ} (field : (c.sockets.socket s).mNode = some n) :
      Owns c (.socket s) (.object n)
  | socketHelix {s h : ℕ} (field : (c.sockets.socket s).mHelix = some h) :
      Owns c (.socket s) (.object h)
  | udpSocket {s u : ℕ} (field : (c.sockets.socket s).mUdpSocket = some u) :
      Owns c (.socket s) (.udpSocket u)

/-- No chain of references leads from a protocol or a factory of the aggregate
back into the aggregate. -/
def Released (c : System P M) (o : ℕ) : Prop :=
  ∀ x ∈ c.wiring.world.objects.members o,
    c.typeOf x = some .helixL4Protocol ∨ c.typeOf x = some .helixSocketFactory →
    ∀ y ∈ c.wiring.world.objects.members o,
      ¬ Relation.TransGen (Owns c) (.object x) (.object y)

def Connected (c : System P M) (o : ℕ) : Prop :=
  (c.getObject o .helixL4Protocol).isSome ∧
    ((c.getObject o .ipv4).isSome ∨ (c.getObject o .ipv6).isSome)

instance (c : System P M) (o : ℕ) : Decidable (Connected c o) :=
  inferInstanceAs (Decidable (_ ∧ _))

variable {tr : List (System P M × SystemLabel P)} {c c' : System P M} {o : ℕ}

section
variable (c : System P M) (o : ℕ)

@[simp] theorem disposed_members :
    (c.dispose o).wiring.world.objects.members = c.wiring.world.objects.members :=
  congrArg _ (dispose_objects c.wiring.world o)

@[simp] theorem disposed_typeOf (x : ℕ) : (c.dispose o).typeOf x = c.typeOf x :=
  congrArg (fun g => g.typeOf x) (dispose_objects c.wiring.world o)

end

theorem disposed_helix {h : ℕ} (hh : h ∈ c.wiring.world.objects.members o)
    (type : c.typeOf h = some .helixL4Protocol) :
    (c.dispose o).helix h = (c.helix h).doDispose := by
  show (c.wiring.world.dispose o).helix h = _
  rw [dispose_helix,if_pos ⟨hh,type⟩]
  rfl

theorem disposed_factory {f : ℕ} (hf : f ∈ c.wiring.world.objects.members o)
    (type : c.typeOf f = some .helixSocketFactory) :
    (c.dispose o).factory f = (c.factory f).doDispose := by
  show (c.wiring.world.dispose o).factory f = _
  rw [dispose_factory,if_pos ⟨hf,type⟩]
  rfl

/-- Only the down targets of a member survive. -/
theorem disposed_owns {x : ℕ} {r : Resource} (hx : x ∈ c.wiring.world.objects.members o)
    (h : Owns (c.dispose o) (.object x) r) : ∃ t v, Ip t ∧ r = .object v ∧
      target c.wiring.world x t = some v := by
  cases h with
  | node type field =>
    rw [disposed_typeOf] at type
    rw [disposed_helix hx type] at field
    cases field
  | sockets type field =>
    rw [disposed_typeOf] at type
    rw [disposed_helix hx type] at field
    simp [HelixStack.HelixL4Protocol.doDispose] at field
  | downTarget type field =>
    rw [disposed_typeOf] at type
    rw [disposed_helix hx type] at field
    exact ⟨.ipv4,_,.inl rfl,rfl,field⟩
  | downTarget6 type field =>
    rw [disposed_typeOf] at type
    rw [disposed_helix hx type] at field
    exact ⟨.ipv6,_,.inr rfl,rfl,field⟩
  | helix type field =>
    rw [disposed_typeOf] at type
    rw [disposed_factory hx type] at field
    cases field

theorem disposed_target {h v : ℕ} {t : TypeId} (hh : h ∈ c.wiring.world.objects.members o)
    (type : c.typeOf h = some .helixL4Protocol) (hv : target c.wiring.world h t = some v) :
    Owns (c.dispose o) (.object h) (.object v) := by
  have hhelix := disposed_helix hh type
  rw [← disposed_typeOf c o] at type
  cases t with
  | ipv4 => exact .downTarget type (by rw [hhelix]; exact hv)
  | ipv6 => exact .downTarget6 type (by rw [hhelix]; exact hv)
  | _ => cases hv

theorem connected_iff : Connected c o ↔ ∃ h ∈ c.wiring.world.objects.members o,
    c.typeOf h = some .helixL4Protocol ∧ HasIp c.wiring.world h := by
  have found : ∀ t, (c.getObject o t).isSome ↔
      ∃ p ∈ c.wiring.world.objects.members o, c.typeOf p = some t :=
    fun t => c.wiring.world.objects.getObject_isSome
  rw [Connected,found,found,found]
  constructor
  · rintro ⟨⟨h,hh,hht⟩,⟨v,hv,hvt⟩ | ⟨v,hv,hvt⟩⟩
    · exact ⟨h,hh,hht,.ipv4,v,.inl rfl,
        c.wiring.world.objects.mem_trans (c.wiring.world.objects.mem_symm hh) hv,hvt⟩
    · exact ⟨h,hh,hht,.ipv6,v,.inr rfl,
        c.wiring.world.objects.mem_trans (c.wiring.world.objects.mem_symm hh) hv,hvt⟩
  · rintro ⟨h,hh,hht,t,v,hip,hv,hvt⟩
    have hmem := c.wiring.world.objects.mem_trans hh hv
    refine ⟨⟨h,hh,hht⟩,hip.imp ?_ ?_⟩
    · rintro rfl
      exact ⟨v,hmem,hvt⟩
    · rintro rfl
      exact ⟨v,hmem,hvt⟩

/-- Disposal of an aggregate breaks every chain of references unless the
aggregate holds both a Helix protocol and an IP layer. -/
theorem disposal_releases_iff
    (hrun : Run Step (.initial M) (tr++[(c,(.dispose o,.nothing))]) c') :
    Released c' o ↔ ¬ Connected c o := by
  obtain ⟨hfirst,hlast⟩ := run_snoc_inv hrun
  cases hlast with
  | dispose idle _ =>
    obtain ⟨sound,_⟩ := idle_sound (run_status hfirst idle.undisposed) idle
    rw [connected_iff]
    constructor
    · rintro hreleased ⟨h,hh,hht,t,v,hip,hv,hvt⟩
      have hset : target c.wiring.world h t = some v := by
        rw [settled_target sound hht hip]
        exact c.wiring.world.objects.getObject_eq_some.mpr ⟨hv,hvt⟩
      have hmem := c.wiring.world.objects.mem_trans hh hv
      exact hreleased h (by simpa using hh) (by simpa using .inl hht) v (by simpa using hmem)
        (.single (disposed_target hh hht hset))
    · intro hapart x hx _ y _ hchain
      obtain ⟨r,hr,_⟩ := Relation.TransGen.head'_iff.mp hchain
      obtain ⟨t,v,hip,_,hv⟩ := disposed_owns (by simpa using hx) hr
      obtain ⟨hxt,hmem,hvt⟩ := sound.between.wired.target x t v hv
      exact hapart ⟨x,by simpa using hx,hxt,t,v,hip,hmem,hvt⟩

/-- `AddHelix` on a node with `Ipv4`: the protocol owns `Ipv4` after disposal. -/
theorem connected_helix_kept : ∃ tr c c',
    Run Step (.initial (.silent : UdpMachine .unit ℕ))
      (tr++[(c,(.dispose 0,.nothing))]) c' ∧ ¬ Released c' 0 := by
  have wired := play_runs (.initial (.silent : UdpMachine .unit ℕ))
    ([.create .node,.create .ipv4,.aggregate 0 1,.proceed,.proceed,.addHelix 0 none] ++
      List.replicate 10 .proceed) rfl rfl rfl
  have disposed := run_then wired (.dispose 0,.nothing) (.dispose ⟨rfl,rfl,rfl⟩ rfl)
  refine ⟨_,_,_,disposed,fun hreleased => ?_⟩
  exact hreleased 2 (by decide) (.inl rfl) 1 (by decide) (.single (.downTarget rfl rfl))

/-- Without an IP layer, a node with a Helix socket is released. -/
theorem unconnected_helix_released : ∃ tr c c',
    Run Step (.initial (.silent : UdpMachine .unit ℕ))
      (tr++[(c,(.dispose 0,.nothing))]) c' ∧ c.nextSocket = 1 ∧ Released c' 0 := by
  have wired := play_runs (.initial (.silent : UdpMachine .unit ℕ))
    ([.create .node,.create .udpSocketFactory,.aggregate 0 1,.proceed,.proceed,
      .addHelix 0 none] ++ List.replicate 10 .proceed) rfl rfl rfl
  have created := run_then wired (.createSocket (.factory 3),.created 0)
    (.created ⟨rfl,rfl,rfl⟩ rfl rfl rfl)
  have disposed := run_then created (.dispose 0,.nothing) (.dispose ⟨rfl,rfl,rfl⟩ rfl)
  exact ⟨_,_,_,disposed,rfl,(disposal_releases_iff disposed).mpr (by decide)⟩

end Ns3Helix.Disposal
