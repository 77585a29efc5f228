import Ns3Helix.CounterMap
import Ns3Helix.SocketSteps
import Ns3Helix.SystemSteps

/-!
# The registry of sockets

A protocol keeps every socket it has created under a key of its own until it
is disposed of. A trampoline in a UDP socket is bound to the Helix socket that
owns that UDP socket, so it always finds it, and no socket sees what is done
with another.
-/

set_option autoImplicit false

namespace Ns3Helix.SocketRegistry
open Ns3Helix.SocketInterface Ns3Helix.SocketImpl Ns3Helix.SocketMachine
open Ns3Helix.HelixSystem Ns3Helix.CounterMap Ns3Helix.TransitionSystem
open Ns3Helix.HelixStack (TypeId)

section Trampolines

variable {P : Platform} {η ι : Type}

def Carries (x : SocketFields P (Target P.AppCallback η)) (h : η) : Prop :=
  ∃ s target, x.callback s = some target ∧ target.owner = some h

theorem carries_setCallback {x : SocketFields P (Target P.AppCallback η)} {s : Slot}
    {cb : Option (Target P.AppCallback η s)} {h : η} (hc : Carries (x.setCallback s cb) h) :
    Carries x h ∨ ∃ target, cb = some target ∧ target.owner = some h := by
  obtain ⟨t,target,ht,ho⟩ := hc
  by_cases hs : t = s
  · subst hs
    rw [setCallback_same] at ht
    exact .inr ⟨target,ht,ho⟩
  · rw [setCallback_other x s cb hs] at ht
    exact .inl ⟨t,target,ht,ho⟩

theorem carries_app {x : SocketFields P (Target P.AppCallback η)} {s : Slot}
    {cb : Option P.AppCallback} {h : η} (hc : Carries (x.setCallback s (appCallback cb)) h) :
    Carries x h := by
  rcases carries_setCallback hc with hc | ⟨target,ht,ho⟩
  · exact hc
  · obtain ⟨a,_,rfl⟩ := Option.map_eq_some_iff.mp ht
    cases ho

theorem carries_forwarded {x : SocketFields P (Target P.AppCallback η)} {g h : η}
    {o : Op P (fun _ => P.AppCallback)} (hc : Carries ((forwarded g o).effect x) h) :
    Carries x h ∨ h = g := by
  have bound : ∀ {s : Slot} (target : Target P.AppCallback η s), target.owner = some g →
      Carries (x.setCallback s (some target)) h → Carries x h ∨ h = g := by
    intro s target hg hc
    rcases carries_setCallback hc with hc | ⟨target',ht,ho⟩
    · exact .inl hc
    · obtain rfl := Option.some.inj ht
      exact .inr (Option.some.inj (ho.symm.trans hg))
  cases o
  case setRecvCallback cb => exact bound (.handleRecv g) rfl hc
  case setSendCallback cb => exact bound (.handleSend g) rfl hc
  all_goals exact .inl hc

theorem carries_appOp {x : SocketFields P (Target P.AppCallback η)} {h : η}
    {o : Op P (fun _ => P.AppCallback)} (hc : Carries ((appOp o).effect x) h) : Carries x h := by
  cases o
  case setRecvCallback cb => exact carries_app hc
  case setSendCallback cb => exact carries_app hc
  all_goals exact hc

theorem carries_appInherited {x : SocketFields P (Target P.AppCallback η)} {h : η}
    {i : Inherited (fun _ => P.AppCallback)} (hc : Carries ((appInherited i).effect x) h) :
    Carries x h := by
  cases i with
  | setConnectCallback a b => exact carries_app (carries_app hc)
  | setCloseCallbacks a b => exact carries_app (carries_app hc)
  | setAcceptCallback a b => exact carries_app (carries_app hc)
  | setDataSentCallback a => exact carries_app hc
  | setOption | unsetIpv6Tclass | getOption | getBoundNetDevice => exact hc

variable [DecidableEq η] [DecidableEq ι] {M : UdpMachine P ι} {c : Config P η ι M}

omit [DecidableEq ι] in
theorem socketAfter_udpSocket (c : Config P η ι M) (a : Action P η ι) (h : η) :
    (c.socketAfter a h).mUdpSocket = (c.socket h).mUdpSocket := by
  cases a with
  | call s o =>
    cases s with
    | udp u => rfl
    | helix g =>
      simp only [Config.socketAfter]
      cases (c.socket g).mUdpSocket with
      | none => rfl
      | some u =>
        by_cases hg : h = g
        · subst hg; simp
        · simp [hg]
  | inherited s i =>
    cases s with
    | udp u => rfl
    | helix g =>
      by_cases hg : h = g
      · subst hg; simp [Config.socketAfter]
      · simp [Config.socketAfter,hg]
  | callbackReturn => rfl
  | udp move => rfl

omit [DecidableEq η] in
/-- A trampoline is only ever stored in the UDP socket of its Helix socket. -/
theorem udpAfter_carries {a : Action P η ι} {u : ι} {h : η} (hc : Carries (c.udpAfter a u) h) :
    Carries (c.udp u) h ∨ (c.socket h).mUdpSocket = some u := by
  cases a with
  | call s o =>
    cases s with
    | helix g =>
      cases hg : (c.socket g).mUdpSocket with
      | none =>
        simp only [Config.udpAfter,hg] at hc
        exact .inl hc
      | some v =>
        simp only [Config.udpAfter,hg] at hc
        by_cases hu : u = v
        · subst hu
          rw [Function.update_self] at hc
          rcases carries_forwarded hc with hc | rfl
          · exact .inl hc
          · exact .inr hg
        · rw [Function.update_of_ne hu] at hc
          exact .inl hc
    | udp v =>
      by_cases hu : u = v
      · subst hu
        simp only [Config.udpAfter,Function.update_self] at hc
        exact .inl (carries_appOp hc)
      · simp only [Config.udpAfter,Function.update_of_ne hu] at hc
        exact .inl hc
  | inherited s i =>
    cases s with
    | helix g => exact .inl hc
    | udp v =>
      by_cases hu : u = v
      · subst hu
        simp only [Config.udpAfter,Function.update_self] at hc
        exact .inl (carries_appInherited hc)
      · simp only [Config.udpAfter,Function.update_of_ne hu] at hc
        exact .inl hc
  | callbackReturn => exact .inl hc
  | udp move => exact .inl hc

def On (h : η) : Action P η ι → Prop
  | .call (.helix g) _ => g = h
  | .inherited (.helix g) _ => g = h
  | _ => False

structure Untouched (c c' : Config P η ι M) (h : η) : Prop where
  socket : c'.socket h = c.socket h
  udp : ∀ u, (c.socket h).mUdpSocket = some u → c'.udp u = c.udp u

omit [DecidableEq η] in
theorem untouched_update {c' : Config P η ι M} {h : η} {v : ι}
    {x : SocketFields P (Target P.AppCallback η)} (hsocket : c'.socket h = c.socket h)
    (hudp : c'.udp = Function.update c.udp v x) (hv : (c.socket h).mUdpSocket ≠ some v) :
    Untouched c c' h where
  socket := hsocket
  udp u hu := by
    have huv : u ≠ v := by
      rintro rfl
      exact hv hu
    rw [hudp,Function.update_of_ne huv]

/-- What is done with one Helix socket leaves all others as they are. -/
theorem step_untouched {c' : Config P η ι M} {l : Label P η ι} {h : η} (hecho : c.Echoing)
    (hsep : ∀ g u, (c.socket g).mUdpSocket = some u → (c.socket h).mUdpSocket = some u → g = h)
    (hstep : Step M c l c') (hon : ¬ On h l.1) : Untouched c c' h := by
  obtain ⟨hsocket,hudp,_⟩ := step_after hecho hstep
  have hadmits := hstep.1
  obtain ⟨a,seen⟩ := l
  cases a with
  | callbackReturn => exact ⟨congrFun hsocket h,fun u _ => congrFun hudp u⟩
  | udp move => exact ⟨congrFun hsocket h,fun u _ => congrFun hudp u⟩
  | call s o =>
    cases s with
    | helix g =>
      have hne : h ≠ g := fun e => hon e.symm
      cases hg : (c.socket g).mUdpSocket with
      | none =>
        simp only [Config.socketAfter,Config.udpAfter,hg] at hsocket hudp
        exact ⟨congrFun hsocket h,fun u _ => congrFun hudp u⟩
      | some v =>
        simp only [Config.socketAfter,Config.udpAfter,hg] at hsocket hudp
        refine untouched_update ?_ hudp fun hv => hne (hsep g v hg hv).symm
        rw [hsocket,Function.update_of_ne hne]
    | udp v => exact untouched_update (congrFun hsocket h) hudp (hadmits h)
  | inherited s i =>
    cases s with
    | helix g =>
      have hne : h ≠ g := fun e => hon e.symm
      simp only [Config.socketAfter,Config.udpAfter] at hsocket hudp
      exact ⟨by rw [hsocket,Function.update_of_ne hne],fun u _ => congrFun hudp u⟩
    | udp v => exact untouched_update (congrFun hsocket h) hudp (hadmits h)

/-- An event that invokes a callback with a Helix socket was raised on the UDP
socket of that Helix socket, and the callback is the one kept there. -/
theorem raise_reaches {r : Config P η ι M × Seen P η ι} {u : ι} {e e' : Event}
    {cb : P.AppCallback} {h : η}
    (hcarries : ∀ g, Carries (c.udp u) g → (c.socket g).mUdpSocket = some u)
    (hexec : c.exec (.udp (.raise u e)) = some r) (hseen : r.2 = .invoked cb (.helix h) e') :
    (c.socket h).mUdpSocket = some u ∧ (c.socket h).kept e = some cb ∧ e' = e := by
  cases Config.exec_executes hexec with
  | raise u e _ =>
    cases hcb : (c.udp u).callback e.slot with
    | none =>
      rw [Config.raise_none hcb] at hseen
      cases hseen
    | some target =>
      rcases target_cases target with ⟨a,rfl⟩ | ⟨g,hg⟩
      · rw [Config.raise_app hcb] at hseen
        cases hseen
      · rw [Config.raise_bound hcb hg,Config.reach] at hseen
        cases hk : (c.socket g).kept e with
        | none =>
          rw [hk] at hseen
          cases hseen
        | some a =>
          rw [hk] at hseen
          cases hseen
          exact ⟨hcarries h ⟨e.slot,target,hcb,hg⟩,hk,rfl⟩

end Trampolines

section Sockets

variable {P : Platform} {M : UdpMachine P ℕ} {c c' : System P M} {l : SystemLabel P}

/-- The sockets that exist are the wrapped ones, each around a UDP socket of
its own. -/
structure Paired (c : System P M) : Prop where
  echoing : c.sockets.Echoing
  wrapped : ∀ s, (c.sockets.socket s).mUdpSocket.isSome ↔ s < c.nextSocket
  allocated : ∀ s u, (c.sockets.socket s).mUdpSocket = some u → u < c.nextUdpSocket
  separate : ∀ s s' u, (c.sockets.socket s).mUdpSocket = some u →
    (c.sockets.socket s').mUdpSocket = some u → s = s'
  carries : ∀ u s, Carries (c.sockets.udp u) s → (c.sockets.socket s).mUdpSocket = some u

theorem paired_initial : Paired (.initial M) where
  echoing _ hf := by cases hf
  wrapped s := by simp [System.initial,bare,HelixSocketImpl.fresh]
  allocated s u h := by cases h
  separate s s' u h := by cases h
  carries u s h := by
    obtain ⟨t,target,ht,_⟩ := h
    cases ht

structure SameSockets (c c' : System P M) : Prop where
  sockets : c'.sockets = c.sockets
  nextSocket : c'.nextSocket = c.nextSocket
  nextUdpSocket : c.nextUdpSocket ≤ c'.nextUdpSocket

theorem paired_same (h : Paired c) (hc : SameSockets c c') : Paired c' where
  echoing := by rw [hc.sockets]; exact h.echoing
  wrapped s := by rw [hc.sockets,hc.nextSocket]; exact h.wrapped s
  allocated s u hu := by
    rw [hc.sockets] at hu
    exact Nat.lt_of_lt_of_le (h.allocated s u hu) hc.nextUdpSocket
  separate := by rw [hc.sockets]; exact h.separate
  carries := by rw [hc.sockets]; exact h.carries

theorem paired_socket {a : Action P ℕ ℕ} {seen : Seen P ℕ ℕ} {d : Config P ℕ ℕ M} (h : Paired c)
    (hstep : SocketMachine.Step M c.sockets (a,seen) d) : Paired { c with sockets := d } := by
  obtain ⟨hsocket,hudp,hecho⟩ := step_after h.echoing hstep
  have same : ∀ s, (d.socket s).mUdpSocket = (c.sockets.socket s).mUdpSocket := fun s => by
    rw [hsocket,socketAfter_udpSocket]
  refine ⟨hecho,fun s => ?_,fun s u hu => ?_,fun s s' u hs hs' => ?_,fun u s hc => ?_⟩
  · show (d.socket s).mUdpSocket.isSome ↔ _
    rw [same]
    exact h.wrapped s
  · exact h.allocated s u ((same s).symm.trans hu)
  · exact h.separate s s' u ((same s).symm.trans hs) ((same s').symm.trans hs')
  · show (d.socket s).mUdpSocket = some u
    rw [same]
    have hc' : Carries (d.udp u) s := hc
    rw [hudp] at hc'
    exact (udpAfter_carries hc').elim (h.carries u s) id

theorem created_socket (c : System P M) (p n s : ℕ) : (c.created p n).sockets.socket s =
    if s = c.nextSocket then ((HelixSocketImpl.fresh.setNode (some n)).setHelix
      (some p)).setUdpSocket (some c.nextUdpSocket)
    else c.sockets.socket s := by
  by_cases hs : s = c.nextSocket
  · subst hs
    simp [System.created,System.addSocket,System.withWorld]
  · simp [System.created,System.addSocket,System.withWorld,System.setSocket,System.newSocket,
      System.newUdpSocket,Config.setSocket,hs]

theorem paired_created (h : Paired c) (p n : ℕ) : Paired (c.created p n) := by
  have old : ∀ s u, (c.sockets.socket s).mUdpSocket = some u → s ≠ c.nextSocket := by
    rintro s u hu rfl
    have hlt := (h.wrapped _).mp (Option.isSome_iff_exists.mpr ⟨u,hu⟩)
    exact Nat.lt_irrefl _ hlt
  have cases : ∀ s u, ((c.created p n).sockets.socket s).mUdpSocket = some u →
      (s = c.nextSocket ∧ u = c.nextUdpSocket) ∨ (c.sockets.socket s).mUdpSocket = some u := by
    intro s u hu
    rw [created_socket] at hu
    split at hu
    next hs => exact .inl ⟨hs,(Option.some.inj hu).symm⟩
    next => exact .inr hu
  refine ⟨h.echoing,fun s => ?_,fun s u hu => ?_,fun s s' u hs hs' => ?_,fun u s hc => ?_⟩
  · show _ ↔ s < c.nextSocket+1
    rw [created_socket]
    split
    next hs => simp [HelixSocketImpl.setUdpSocket,hs]
    next hs =>
      rw [h.wrapped]
      omega
  · show u < c.nextUdpSocket+1
    rcases cases s u hu with ⟨_,rfl⟩ | hu
    · exact Nat.lt_succ_self _
    · exact Nat.lt_succ_of_lt (h.allocated s u hu)
  · rcases cases s u hs with ⟨rfl,rfl⟩ | hs <;> rcases cases s' _ hs' with ⟨rfl,hu⟩ | hs'
    · rfl
    · exact absurd (h.allocated s' _ hs') (Nat.lt_irrefl _)
    · exact absurd (h.allocated s _ hs) (by rw [hu]; exact Nat.lt_irrefl _)
    · exact h.separate s s' u hs hs'
  · have hu := h.carries u s hc
    rw [created_socket,if_neg (old s u hu)]
    exact hu

theorem step_paired (h : Paired c) (hstep : Step c l c') : Paired c' := by
  cases hstep with
  | stack _ _ _ => exact paired_same h ⟨rfl,rfl,Nat.le_refl _⟩
  | socket _ _ hs => exact paired_socket h hs
  | created _ _ _ hs =>
    obtain ⟨_,p,n,_,_,rfl,rfl⟩ := createSocket_ok c hs
    exact paired_same (paired_created h p n) ⟨rfl,rfl,Nat.le_refl _⟩
  | aborted _ _ _ _ => exact paired_same h ⟨rfl,rfl,Nat.le_refl _⟩
  | createUdpSocket _ _ _ => exact paired_same h ⟨rfl,rfl,Nat.le_succ _⟩
  | drop _ _ _ => exact paired_same h ⟨rfl,rfl,Nat.le_refl _⟩
  | dispose _ _ => exact paired_same h ⟨rfl,rfl,Nat.le_refl _⟩

theorem run_paired {tr : List (System P M × SystemLabel P)}
    (hrun : Run Step (.initial M) tr c) : Paired c :=
  run_invariant Paired paired_initial (fun _ _ _ => step_paired) hrun

end Sockets

section Registry

variable {P : Platform} {M : UdpMachine P ℕ}

def creations (tr : List (System P M × SystemLabel P)) : List (Option ℕ × ℕ) :=
  tr.filterMap fun e => match e.2 with
    | (.createSocket r,.created s) => some (e.1.serves r,s)
    | _ => none

def createdBy (tr : List (System P M × SystemLabel P)) (p : ℕ) : List ℕ :=
  ((creations tr).filter fun x => x.1 = some p).map Prod.snd

variable {tr : List (System P M × SystemLabel P)} {c c' : System P M} {l : SystemLabel P} {p : ℕ}

theorem creations_created {r : Creator} {s : ℕ} :
    creations (tr++[(c,(.createSocket r,.created s))]) = creations tr ++ [(c.serves r,s)] := by
  simp [creations]

theorem creations_other (h : ∀ r s, l ≠ (.createSocket r,.created s)) :
    creations (tr++[(c,l)]) = creations tr := by
  obtain ⟨e,o⟩ := l
  cases e with
  | createSocket r =>
    cases o with
    | created s => exact absurd rfl (h r s)
    | nothing | socket | aborted => simp [creations]
  | stack | socket | createUdpSocket | drop | dispose => simp [creations]

/-- Every socket is numbered, and stands in the registry of the protocol that
created it until that is disposed of. -/
structure Ledger (tr : List (System P M × SystemLabel P)) (c : System P M) : Prop where
  numbered : (creations tr).map Prod.snd = List.range c.nextSocket
  served : ∀ x ∈ creations tr, x.1 ≠ none
  registry : ∀ p, p ∉ c.disposed → (createdBy tr p).length < UInt64.size →
    Represents (c.helix p).mSockets (c.helix p).mSocketIndex ((createdBy tr p).map some)
  emptied : ∀ p ∈ c.disposed, c.typeOf p = some .helixL4Protocol → (c.helix p).mSockets = ∅

theorem ledger_initial : Ledger [] (.initial M) where
  numbered := rfl
  served _ hx := by cases hx
  registry _ _ _ := represents_empty
  emptied _ hp := by cases hp

theorem ledger_same (h : Ledger tr c) (hl : ∀ r s, l ≠ (.createSocket r,.created s))
    (hc : c.disposed = []) (hc' : c'.disposed = []) (hnext : c'.nextSocket = c.nextSocket)
    (hsame : SameRegistries c.wiring.world c'.wiring.world) : Ledger (tr++[(c,l)]) c' where
  numbered := by rw [creations_other hl,hnext]; exact h.numbered
  served := by rw [creations_other hl]; exact h.served
  registry q _ hq := by
    have hother : createdBy (tr++[(c,l)]) q = createdBy tr q := by
      rw [createdBy,creations_other hl]
      rfl
    rw [hother] at hq ⊢
    have hr := h.registry q (by simp [hc]) hq
    rwa [← show (c'.helix q).mSockets = (c.helix q).mSockets from (hsame q).1,
      ← show (c'.helix q).mSocketIndex = (c.helix q).mSocketIndex from (hsame q).2] at hr
  emptied q hq := by simp [hc'] at hq

theorem created_helix (c : System P M) (p n q : ℕ) : (c.created p n).helix q =
    if q = p then (c.helix p).addSocket c.nextSocket else c.helix q := by
  by_cases hq : q = p
  · subst hq
    simp [System.created,System.addSocket,System.withWorld,System.helix,System.setSocket,
      System.newSocket,System.newUdpSocket,HelixStack.World.setHelixFields]
  · simp [System.created,System.addSocket,System.withWorld,System.helix,System.setSocket,
      System.newSocket,System.newUdpSocket,HelixStack.World.setHelixFields,hq]

theorem createdBy_created {r : Creator} {s : ℕ} (hr : c.serves r = some p) (q : ℕ) :
    createdBy (tr++[(c,(.createSocket r,.created s))]) q =
      if q = p then createdBy tr q ++ [s] else createdBy tr q := by
  rw [createdBy,creations_created,List.filter_append,List.map_append,hr]
  by_cases hq : q = p
  · subst hq
    simp [createdBy]
  · simp [createdBy,hq,Ne.symm hq]

theorem ledger_created (h : Ledger tr c) {r : Creator} {n : ℕ} (hc : c.disposed = [])
    (hr : c.serves r = some p) : Ledger
      (tr++[(c,(.createSocket r,.created c.nextSocket))]) ((c.created p n).hold c.nextSocket) where
  numbered := by
    rw [creations_created,List.map_append,h.numbered]
    exact List.range_succ.symm
  served := by
    rw [creations_created]
    intro x hx
    rcases List.mem_append.mp hx with hx | hx
    · exact h.served x hx
    · obtain rfl := List.mem_singleton.mp hx
      simp [hr]
  registry q _ hq := by
    show Represents ((c.created p n).helix q).mSockets ((c.created p n).helix q).mSocketIndex _
    rw [createdBy_created hr] at hq ⊢
    rw [created_helix]
    by_cases hqp : q = p
    · subst hqp
      have hlen : (createdBy tr q).length+1 < UInt64.size := by simpa using hq
      have hold := h.registry q (by simp [hc]) (by omega)
      have hnew := represents_insert hold (some c.nextSocket) (by simpa using hlen)
      simpa [HelixStack.HelixL4Protocol.addSocket] using hnew
    · simp only [if_neg hqp] at hq ⊢
      exact h.registry q (by simp [hc]) hq
  emptied q hq := by
    have hnone : ((c.created p n).hold c.nextSocket).disposed = [] := hc
    simp [hnone] at hq

theorem ledger_disposed (h : Ledger tr c) (hc : c.disposed = []) (o : ℕ) :
    Ledger (tr++[(c,(.dispose o,.nothing))]) (c.dispose o) where
  numbered := by rw [creations_other (by simp)]; exact h.numbered
  served := by rw [creations_other (by simp)]; exact h.served
  registry q hq hlen := by
    have hother : createdBy (tr++[(c,(.dispose o,.nothing))]) q = createdBy tr q := by
      rw [createdBy,creations_other (by simp)]
      rfl
    rw [hother] at hlen ⊢
    have hsame : (c.dispose o).helix q = c.helix q := by
      show (c.wiring.world.dispose o).helix q = _
      rw [dispose_helix,if_neg fun hm => hq hm.1]
      rfl
    rw [hsame]
    exact h.registry q (by simp [hc]) hlen
  emptied q hq ht := by
    have ht' : c.wiring.world.objects.typeOf q = some .helixL4Protocol := by
      have hobjects := dispose_objects c.wiring.world o
      rw [← hobjects]
      exact ht
    show ((c.wiring.world.dispose o).helix q).mSockets = ∅
    rw [dispose_helix,if_pos ⟨hq,ht'⟩]
    rfl

theorem step_ledger (h : Ledger tr c) (hstep : Step c l c') : Ledger (tr++[(c,l)]) c' := by
  have hc := step_undisposed hstep
  cases hstep with
  | stack _ _ hs => exact ledger_same h (by simp) hc hc rfl (wiring_registries hs)
  | socket _ _ _ => exact ledger_same h (by simp) hc hc rfl (registries_refl _)
  | created _ _ _ hs =>
    obtain ⟨_,p,n,hp,_,rfl,rfl⟩ := createSocket_ok c hs
    exact ledger_created h hc hp
  | aborted _ _ _ _ => exact ledger_same h (by simp) hc hc rfl (registries_refl _)
  | createUdpSocket _ _ _ => exact ledger_same h (by simp) hc hc rfl (registries_refl _)
  | drop _ _ _ => exact ledger_same h (by simp) hc hc rfl (registries_refl _)
  | dispose _ _ => exact ledger_disposed h hc _

theorem run_ledger (hrun : Run Step (.initial M) tr c) : Ledger tr c := by
  induction hrun with
  | nil => exact ledger_initial
  | snoc run last ih => exact step_ledger ih last

theorem createdBy_nodup (h : Ledger tr c) (p : ℕ) : (createdBy tr p).Nodup := by
  have hall : ((creations tr).map Prod.snd).Nodup := by
    rw [h.numbered]
    exact List.nodup_range
  exact hall.sublist (List.filter_sublist.map _)

theorem created_exists (h : Ledger tr c) {s : ℕ} (hs : s < c.nextSocket) :
    ∃ p, s ∈ createdBy tr p := by
  have hmem : s ∈ (creations tr).map Prod.snd := by
    rw [h.numbered]
    exact List.mem_range.mpr hs
  obtain ⟨x,hx,rfl⟩ := List.mem_map.mp hmem
  obtain ⟨p,hp⟩ := Option.ne_none_iff_exists'.mp (h.served x hx)
  exact ⟨p,List.mem_map.mpr ⟨x,List.mem_filter.mpr ⟨hx,by simpa using hp⟩,rfl⟩⟩

theorem carried_created (h : Ledger tr c) (hpaired : Paired c) {u s : ℕ}
    (hc : Carries (c.sockets.udp u) s) : ∃ p, s ∈ createdBy tr p := by
  have hu := hpaired.carries u s hc
  exact created_exists h ((hpaired.wrapped s).mp (Option.isSome_iff_exists.mpr ⟨u,hu⟩))

theorem createdBy_length (tr : List (System P M × SystemLabel P)) (p : ℕ) :
    (createdBy tr p).length ≤ (creations tr).length := by
  rw [createdBy,List.length_map]
  exact List.length_filter_le _ _

/-- A socket that was created is in a registry as long as nothing is disposed of. -/
theorem created_owned (h : Ledger tr c) (hc : c.disposed = [])
    (hlen : (creations tr).length < UInt64.size) {s : ℕ} (hs : s ∈ createdBy tr p) : c.Owned s := by
  have hlen' := Nat.lt_of_le_of_lt (createdBy_length tr p) hlen
  have hr := h.registry p (by simp [hc]) hlen'
  obtain ⟨k,hk⟩ := represents_of_mem hr (List.mem_map_of_mem hs)
  exact ⟨p,k,hk⟩

end Registry

end Ns3Helix.SocketRegistry
