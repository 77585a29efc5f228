import Ns3Helix.NullCallback
import Ns3Helix.TransferProgress

/-!
# Events on the closed sockets of the large transfer

The example registers each of its two callbacks once, before it closes the
socket, and a chance to do so is used up by doing it. What `CloseSocket` takes
away therefore stays away, and an event that still arrives is a crash.
-/

set_option autoImplicit false

namespace Ns3Helix.TransferClosing
open Ns3Helix.SocketInterface Ns3Helix.SocketImpl Ns3Helix.SocketMachine
open Ns3Helix.SocketHistory Ns3Helix.NullCallback Ns3Helix.LargeTransfer
open Ns3Helix.TransferCalls Ns3Helix.TransferProgress Ns3Helix.TransferRuns
open Ns3Helix.TransitionSystem

variable {P : Platform} {η ι : Type}

inductive Hook
  | recv
  | send
  deriving DecidableEq, Repr

namespace Hook

section
variable (E : Example P η)

def socket : Hook → η
  | .recv => E.remoteSocket
  | .send => E.localSocket

def set (r : Option Callback) : Hook → Op (platform P) (fun _ => Callback)
  | .recv => .setRecvCallback r
  | .send => .setSendCallback r

def location : Hook → Location P η ι
  | .recv => .hookRemote
  | .send => .hookLocal

def leads : Hook → SimulatorEvent → Bool
  | .recv, .main => true
  | .send, .main => true
  | .send, .startFlow => true
  | _, _ => false

def ahead : Hook → Phase P η ι → Bool
  | .recv, .calling .bindRemote => true
  | .recv, .waiting .bindRemote => true
  | .recv, .calling .listenRemote => true
  | .recv, .waiting .listenRemote => true
  | .recv, .calling .hookRemote => true
  | .send, .calling .connect => true
  | .send, .waiting .connect => true
  | .send, .calling .hookLocal => true
  | _, _ => false

def after : Hook → Location P η ι → Prop
  | .recv, .close s => s = .helix E.remoteSocket
  | .recv, .unhookRecv s => s = .helix E.remoteSocket
  | .send, .txSpace => True
  | .send, .condition _ => True
  | .send, .room _ _ _ => True
  | .send, .sending _ _ _ => True
  | .send, .close s => s = .helix E.localSocket
  | .send, .unhookRecv s => s = .helix E.localSocket
  | .send, .unhookSend s => s = .helix E.localSocket
  | _, _ => False

end

/-- How often the callback may still be registered. -/
def chances (k : Hook) (p : Process P η ι) : ℕ :=
  p.scheduled.countP k.leads + p.functions.countP fun x => k.ahead x.phase

end Hook

section Steps

variable {E : Example P η} {p p' : Process P η ι} {l : Label (platform P) η ι} {k : Hook}

inductive Reached (E : Example P η) (p : Process P η ι) (l : Label (platform P) η ι) :
    Phase P η ι → Prop
  | begin (e : SimulatorEvent) (scheduled : e ∈ p.scheduled) (idle : p.functions = []) :
      Reached E p l (.waiting (e.start E))
  | call (callback : Option Callback) (a : Location P η ι)
      (hx : ⟨callback,.calling a⟩ ∈ p.functions) (hl : l.1 = .call (a.socket E) (a.op E)) :
      Reached E p l (.waiting a)
  | resumed (callback : Option Callback) (a b : Location P η ι)
      (hx : ⟨callback,.waiting a⟩ ∈ p.functions) (v : (a.op E).ty.denote (platform P))
      (hb : (resume E p.currentTxBytes a v).2 = some b) : Reached E p l (.calling b)
  | handleRead (s : SocketRef η ι) : Reached E p l (.calling (LargeTransfer.handleRead s))
  | writeUntilBufferFull (u : ι) (e : Event) (s : SocketRef η ι) (a : Location P η ι)
      (hl : l = (.udp (.raise u e),.invoked .writeUntilBufferFull s e))
      (ha : LargeTransfer.writeUntilBufferFull p.currentTxBytes s = some a) :
      Reached E p l (.calling a)
  | returning : Reached E p l .returning

theorem function_reached (hstep : ProcessStep E p l p') {x : Function P η ι}
    (hx : x ∈ p'.functions) : x ∈ p.functions ∨ Reached E p l x.phase := by
  cases hstep with
  | begin e scheduled idle =>
    obtain rfl := List.mem_singleton.mp hx
    exact .inr (.begin e scheduled idle)
  | call callback a rest hp =>
    rcases List.mem_cons.mp hx with rfl | hx
    · exact .inr (.call callback a (by simp [hp]) rfl)
    · exact .inl (by simp [hp,hx])
  | returned callback a rest hp v =>
    rcases FunctionStack.mem_proceed hx with hx | hphase | ⟨b,hb,hphase⟩
    · exact .inl (by simp [hp,hx])
    · exact .inr (hphase ▸ .returning)
    · exact .inr (hphase ▸ .resumed callback a b (by simp [hp]) v hb)
  | invoked u e cb s =>
    rcases FunctionStack.mem_proceed hx with hx | hphase | ⟨b,hb,hphase⟩
    · exact .inl hx
    · exact .inr (hphase ▸ .returning)
    · refine .inr (hphase ▸ ?_)
      cases cb with
      | handleRead =>
        obtain rfl := Option.some.inj hb
        exact .handleRead s
      | writeUntilBufferFull => exact .writeUntilBufferFull u e s b rfl hb
  | callbackReturn cb rest hp => exact .inl (by simp [hp,hx])
  | udp move seen h => exact .inl hx

theorem begin_chances (k : Hook) (e : SimulatorEvent) :
    e.schedules.countP k.leads +
      (if k.ahead (.waiting (e.start E) : Phase P η ι) then 1 else 0) =
    if k.leads e then 1 else 0 := by
  cases k <;> cases e <;> rfl

theorem call_ahead {a : Location P η ι} (h : k.ahead (.waiting a) = true) :
    k.ahead (.calling a) = true ∧ a ≠ k.location := by
  cases k with
  | recv =>
    cases a with
    | bindRemote | listenRemote => exact ⟨rfl,fun e => by cases e⟩
    | _ => cases h
  | send =>
    cases a with
    | connect => exact ⟨rfl,fun e => by cases e⟩
    | _ => cases h

theorem location_ahead (k : Hook) : k.ahead (.calling (k.location : Location P η ι)) = true := by
  cases k <;> rfl

theorem next_ahead {a b : Location P η ι} (h : Next E a b) (hb : k.ahead (.calling b) = true) :
    k.ahead (.waiting a) = true := by
  cases h with
  | bindRemote | listenRemote | connect => cases k <;> first | rfl | cases hb
  | started _ h | sent _ _ _ _ h => rcases h with rfl | rfl <;> cases k <;> cases hb
  | hookRemote | hookLocal | room | full | sending | recvFrom | close | unhookRecv =>
    cases k <;> cases hb

theorem next_after {a b : Location P η ι} (h : Next E a b) (ha : Placed E a)
    (hb : k.after E b) : k.after E a ∨ a = k.location := by
  have apart : (.helix E.localSocket : SocketRef η ι) ≠ .helix E.remoteSocket := fun e =>
    E.distinct (SocketRef.helix.inj e)
  have writer {a : Location P η ι} (h : a = .condition (.helix E.localSocket) ∨
      a = .close (.helix E.localSocket)) : ¬ Hook.recv.after E a := by
    rcases h with rfl | rfl
    · exact id
    · exact apart
  cases k with
  | recv =>
    cases h with
    | started _ h => exact absurd hb (writer h)
    | full s =>
      obtain rfl : s = .helix E.localSocket := ha
      exact absurd hb apart
    | sent s _ _ _ h =>
      obtain rfl : s = .helix E.localSocket := ha
      exact absurd hb (writer h)
    | close s => exact .inl hb
    | bindRemote | listenRemote | hookRemote | connect | hookLocal | room | sending | recvFrom
      | unhookRecv => exact hb.elim
  | send =>
    cases h with
    | hookLocal => exact .inr rfl
    | started | room | full | sending | sent => exact .inl trivial
    | close s | unhookRecv s => exact .inl hb
    | bindRemote | listenRemote | hookRemote | connect | recvFrom => exact hb.elim

theorem location_set {a : Location P η ι} {cb : Callback} (h : a.op E = k.set (some cb)) :
    a = k.location := by
  cases k <;> cases a <;> cases h <;> rfl

theorem location_unset {a : Location P η ι} (h : a.op E = k.set none)
    (hs : a.socket E = .helix (k.socket E)) : k.after E a := by
  cases k <;> cases a <;> cases h <;> exact hs

theorem countP_erased {α : Type} [DecidableEq α] {xs : List α} {a : α} (q : α → Bool)
    (h : a ∈ xs) : (xs.erase a).countP q + (if q a then 1 else 0) = xs.countP q := by
  rw [(List.perm_cons_erase h).countP_eq q,List.countP_cons]

theorem chances_functions {q : Process P η ι} {x : Function P η ι} {rest : List (Function P η ι)}
    (k : Hook) (h : q.functions = x :: rest) : k.chances q = q.scheduled.countP k.leads +
      (rest.countP fun y => k.ahead y.phase) + if k.ahead x.phase then 1 else 0 := by
  rw [Hook.chances,h,List.countP_cons,Nat.add_assoc]

theorem ahead_le {a b : Phase P η ι} (h : k.ahead b = true → k.ahead a = true) :
    (if k.ahead b then 1 else 0) ≤ if k.ahead a then 1 else 0 := by
  split
  next hb => rw [if_pos (h hb)]
  next => exact Nat.zero_le _

theorem proceed_ahead (k : Hook) (callback : Option Callback) (rest : List (Function P η ι))
    {next : Option (Location P η ι)} {n : ℕ}
    (h : ∀ b, next = some b → (if k.ahead (.calling b : Phase P η ι) then 1 else 0) ≤ n) :
    (FunctionStack.proceed callback rest next).countP (fun x => k.ahead x.phase) ≤
      (rest.countP fun x => k.ahead x.phase) + n := by
  cases next with
  | some b =>
    rw [FunctionStack.proceed,List.countP_cons]
    exact Nat.add_le_add_left (h b rfl) _
  | none =>
    cases callback with
    | some cb =>
      rw [FunctionStack.proceed,FunctionStack.ended,List.countP_cons]
      exact Nat.add_le_add_left (by cases k <;> exact Nat.zero_le _) _
    | none => exact Nat.le_add_right _ _

theorem start_ahead {currentTxBytes : UInt32} {s : SocketRef η ι} {cb : Callback}
    {a : Location P η ι} (h : cb.start currentTxBytes s = some a) :
    k.ahead (.calling a : Phase P η ι) = false := by
  cases cb with
  | handleRead =>
    obtain rfl := Option.some.inj h
    cases k <;> rfl
  | writeUntilBufferFull => rcases write_next h with rfl | rfl <;> cases k <;> rfl

/-- Nothing makes a new chance. -/
theorem chances_step (k : Hook) (hstep : ProcessStep E p l p') : k.chances p' ≤ k.chances p := by
  cases hstep with
  | begin e scheduled idle =>
    have hvalue := begin_chances (E := E) (ι := ι) k e
    have hleft := countP_erased k.leads scheduled
    rw [chances_functions k rfl,Hook.chances,idle]
    simp only [List.countP_append,List.countP_nil]
    omega
  | call callback a rest hp =>
    rw [chances_functions k rfl,chances_functions k hp]
    exact Nat.add_le_add_left (ahead_le fun h => (call_ahead h).1) _
  | returned callback a rest hp v =>
    rw [chances_functions k hp,Nat.add_assoc]
    refine Nat.add_le_add_left (proceed_ahead k callback rest fun b hb => ?_) _
    exact ahead_le (next_ahead (resume_next hb))
  | invoked u e cb s =>
    have hcount : ∀ b, cb.start p.currentTxBytes s = some b →
        (if k.ahead (.calling b : Phase P η ι) then 1 else 0) ≤ 0 := fun b hb => by
      rw [start_ahead hb]
      exact Nat.le_refl _
    exact Nat.add_le_add_left (proceed_ahead k (some cb) p.functions hcount)
      (p.scheduled.countP k.leads)
  | callbackReturn cb rest hp =>
    rw [chances_functions k hp]
    exact Nat.le_add_right _ _
  | udp move seen h => exact Nat.le_refl _

theorem start_unset {e : SimulatorEvent} {r : Option Callback} :
    (e.start E : Location P η ι).op E ≠ k.set r := by
  intro h
  cases k <;> cases e <;> cases h

/-- Registering the callback uses a chance up. -/
theorem hook_spends (hstep : ProcessStep E p l p') {s : SocketRef η ι} {cb : Callback}
    (hl : l.1 = .call s (k.set (some cb))) : k.chances p' < k.chances p := by
  cases hstep with
  | begin e scheduled idle => exact absurd (Action.call.inj hl).2 start_unset
  | call callback a rest hp =>
    obtain rfl := location_set (Action.call.inj hl).2
    have hspent : k.ahead (.waiting (k.location : Location P η ι)) = false :=
      Bool.eq_false_iff.mpr fun h => (call_ahead h).2 rfl
    rw [chances_functions k rfl,chances_functions k hp,hspent,location_ahead]
    exact Nat.lt_succ_self _
  | returned | invoked | callbackReturn | udp => cases hl

def MainFirst (p : Process P η ι) : Prop := p.scheduled = [.main] ∨ .main ∉ p.scheduled

theorem step_mainFirst (h : MainFirst p) (hstep : ProcessStep E p l p') : MainFirst p' := by
  cases hstep with
  | begin e scheduled idle =>
    right
    rcases h with h | h
    · rw [h] at scheduled ⊢
      obtain rfl := List.mem_singleton.mp scheduled
      simp [SimulatorEvent.schedules]
    · cases e with
      | main => exact absurd scheduled h
      | startFlow | closeSocket => exact fun hm => h (List.mem_of_mem_erase hm)
  | call | callbackReturn | udp => exact h
  | returned callback a rest hp v =>
    cases hr : resume E p.currentTxBytes a v with
    | mk cur next => cases next <;> exact h
  | invoked u e cb s => cases cb <;> exact h

structure Fresh (E : Example P η) (k : Hook) (ls : List (Label (platform P) η ι))
    (p : Process P η ι) : Prop where
  unset : ∀ l ∈ ls, ∀ r, l.1 ≠ .call (.helix (k.socket E)) (k.set r)
  before : Everywhere (fun a => ¬ k.after E a) p
  pending : ∀ x ∈ p.functions, x.phase ≠ .waiting k.location

variable {ls : List (Label (platform P) η ι)}

theorem start_before (hmain : MainFirst p) (hidle : p.functions = []) (hpos : 0 < k.chances p)
    {e : SimulatorEvent} (he : e ∈ p.scheduled) : ¬ k.after E (e.start E : Location P η ι) := by
  cases e with
  | main | startFlow => cases k <;> exact id
  | closeSocket =>
    cases k with
    | send => exact fun h => E.distinct (SocketRef.helix.inj h).symm
    | recv =>
      rw [Hook.chances,hidle] at hpos
      obtain ⟨x,hx,hleads⟩ := List.countP_pos_iff.mp hpos
      cases x with
      | main =>
        rcases hmain with hmain | hmain
        · rw [hmain] at he
          cases List.mem_singleton.mp he
        · exact absurd hx hmain
      | startFlow | closeSocket => cases hleads

/-- As long as a chance is left, the callback was not touched. -/
theorem fresh_step (h : Fresh E k ls p) (hmain : MainFirst p) (hplaced : Everywhere (Placed E) p)
    (hstep : ProcessStep E p l p') (honce : k.chances p ≤ 1) (hpos : 0 < k.chances p')
    (hwrite : ∀ u e s, l = (.udp (.raise u e),.invoked .writeUntilBufferFull s e) →
      s = .helix E.localSocket ∧ k = .recv) : Fresh E k (ls++[l]) p' := by
  have unspent : ∀ s cb, l.1 ≠ .call s (k.set (some cb)) := fun s cb hl => by
    have hspent := hook_spends hstep hl
    omega
  have hpos' : 0 < k.chances p := Nat.lt_of_lt_of_le hpos (chances_step k hstep)
  refine ⟨fun l' hl' r hcall => ?unset,fun x hx a ha hafter => ?before,fun x hx hphase => ?pending⟩
  case unset =>
    rcases List.mem_append.mp hl' with hl' | hl'
    · exact h.unset l' hl' r hcall
    · obtain rfl := List.mem_singleton.mp hl'
      cases r with
      | some cb => exact unspent _ cb hcall
      | none =>
        cases hstep with
        | begin e _ _ => exact start_unset (Action.call.inj hcall).2
        | call callback a rest hp =>
          obtain ⟨hs,ho⟩ := Action.call.inj hcall
          exact h.before ⟨callback,.calling a⟩ (by simp [hp]) a rfl (location_unset ho hs)
        | returned | invoked | callbackReturn | udp => cases hcall
  case before =>
    rcases function_reached hstep hx with hx | hreached
    · exact h.before x hx a ha hafter
    · generalize x.phase = ph at hreached ha
      cases hreached with
      | begin e scheduled idle =>
        obtain rfl := Option.some.inj ha
        exact start_before hmain idle hpos' scheduled hafter
      | call callback b hx _ => exact h.before _ hx a ha hafter
      | resumed callback b a' hx v hb =>
        obtain rfl := Option.some.inj ha
        rcases next_after (resume_next hb) (hplaced _ hx b rfl) hafter with hafter | rfl
        · exact h.before _ hx b rfl hafter
        · exact h.pending _ hx rfl
      | handleRead s =>
        obtain rfl := Option.some.inj ha
        cases k <;> exact hafter
      | writeUntilBufferFull u e s a' hl hw =>
        obtain rfl := Option.some.inj ha
        obtain ⟨rfl,rfl⟩ := hwrite u e s hl
        rcases write_next hw with rfl | rfl
        · exact hafter
        · exact E.distinct (SocketRef.helix.inj hafter)
      | returning => cases ha
  case pending =>
    rcases function_reached hstep hx with hx | hreached
    · exact h.pending x hx hphase
    · rw [hphase] at hreached
      generalize hw : (.waiting k.location : Phase P η ι) = ph at hreached
      cases hreached with
      | begin e _ _ => cases k <;> cases e <;> cases hw
      | call callback a _ hl =>
        obtain rfl := FunctionStack.Phase.waiting.inj hw
        cases k with
        | recv => exact unspent _ .handleRead hl
        | send => exact unspent _ .writeUntilBufferFull hl
      | resumed | handleRead | writeUntilBufferFull | returning => cases hw

/-- A callback is registered at most once, and not after it was taken away. -/
structure Once (E : Example P η) (k : Hook) (ls : List (Label (platform P) η ι))
    (p : Process P η ι) : Prop where
  once : k.chances p ≤ 1
  fresh : 0 < k.chances p → Fresh E k ls p

theorem once_initial (k : Hook) : Once E k [] (Process.initial : Process P η ι) where
  once := by cases k <;> exact Nat.le_refl _
  fresh _ := ⟨fun l hl => (by cases hl),fun x hx => (by cases hx),fun x hx => (by cases hx)⟩

end Steps

section Runs

variable [DecidableEq η] [DecidableEq ι] {E : Example P η} {M : UdpMachine (platform P) ι}
  {f : η ↪ ι} {ls : List (Label (platform P) η ι)} {c c' : Config (platform P) η ι M}
  {p p' : Process P η ι} {l : Label (platform P) η ι} {k : Hook}

theorem fresh_uninvoked (h : Kept E f ls c p) (hfresh : Fresh E .send ls p) {u : ι} {e e' : Event}
    {s : SocketRef η ι} : (c.raise u e).2 ≠ .invoked .writeUntilBufferFull s e' := by
  intro hseen
  obtain ⟨hs,n,rfl⟩ := invoked_proper h hseen
  obtain ⟨g,-,rfl,rfl,hr⟩ := invoked_registered h hseen
  obtain rfl := SocketRef.helix.inj hs
  obtain ⟨l,hl,o,ha,⟨he,_⟩ | ⟨_,rfl⟩⟩ := history_registered hr
  · cases he
  · exact hfresh.unset l hl _ ha

theorem once_step (h : Once E k ls p) (hkept : Kept E f ls c p) (hmain : MainFirst p)
    (hstep : Joint E M (c,p) l (c',p')) : Once E k (ls++[l]) p' := by
  obtain ⟨⟨_,t,_,hexec⟩,hprocess⟩ := hstep
  have hless := chances_step k hprocess
  refine ⟨Nat.le_trans hless h.once,fun hpos => ?_⟩
  have hfresh := h.fresh (Nat.lt_of_lt_of_le hpos hless)
  refine fresh_step hfresh hmain hkept.placed hprocess h.once hpos ?_
  rintro u e s rfl
  have hkept' := kept_machine hkept t
  have hseen : ((c.withMachine t).raise u e).2 = .invoked .writeUntilBufferFull s e := by
    rw [Config.exec_raise hexec]
  refine ⟨(invoked_proper hkept' hseen).1,?_⟩
  cases k with
  | recv => rfl
  | send => exact absurd hseen (fresh_uninvoked hkept' hfresh)

def Unhooked (g : η) (e : Event) (ls : List (Label (platform P) η ι)) : Prop :=
  ∃ l ∈ ls, ∃ o, l.1 = .call (.helix g) o ∧ Registers none o e

omit [DecidableEq η] [DecidableEq ι] in
theorem operate_unhooks {H : History (platform P)} {o : Op (platform P) (fun _ => Callback)}
    {e : Event} (h : Registers none o e) : (H.operate o).registered e = some none := by
  rcases h with ⟨rfl,rfl⟩ | ⟨⟨n,rfl⟩,rfl⟩
  · rfl
  · rfl

omit [DecidableEq η] [DecidableEq ι] in
theorem operate_keeps {H : History (platform P)} {o : Op (platform P) (fun _ => Callback)}
    {e : Event} (h : H.registered e = some none) (ho : ∀ cb, ¬ Registers (some cb) o e) :
    (H.operate o).registered e = some none := by
  cases e with
  | recv =>
    cases o with
    | setRecvCallback r =>
      cases r with
      | none => rfl
      | some cb => exact absurd (.inl ⟨rfl,rfl⟩) (ho cb)
    | _ => exact h
  | send n =>
    cases o with
    | setSendCallback r =>
      cases r with
      | none => rfl
      | some cb => exact absurd (.inr ⟨⟨n,rfl⟩,rfl⟩) (ho cb)
    | _ => exact h
  | connectionSucceeded | connectionFailed | normalClose | errorClose | dataSent => cases h

omit [DecidableEq ι] in
/-- What was taken away stays away unless it is registered again. -/
theorem history_keeps {g : η} {e : Event} (h : (history g ls).registered e = some none)
    (hl : ∀ o cb, l.1 = .call (.helix g) o → ¬ Registers (some cb) o e) :
    (history g (ls++[l])).registered e = some none := by
  obtain ⟨a,seen⟩ := l
  rw [history_snoc]
  cases a with
  | call s o =>
    cases s with
    | udp u => exact h
    | helix g' =>
      by_cases hg : g' = g
      · subst hg
        rw [History.record,if_pos rfl]
        exact operate_keeps h fun cb => hl o cb rfl
      · rw [History.record,if_neg hg]
        exact h
  | inherited s i =>
    cases s with
    | udp u => exact h
    | helix g' =>
      rw [History.record]
      split
      · cases e <;> exact h
      · exact h
  | callbackReturn | udp => exact h

omit [DecidableEq η] [DecidableEq ι] in
theorem hooks_hook {g : η} {e : Event} {o : Op (platform P) (fun _ => Callback)} {cb : Callback}
    (h : Hooks E l) (hl : l.1 = .call (.helix g) o) (ho : Registers (some cb) o e) :
    ∃ k : Hook, g = k.socket E ∧ o = k.set (some cb) ∧
      ∀ r (o' : Op (platform P) (fun _ => Callback)), Registers r o' e → o' = k.set r := by
  rcases ho with ⟨rfl,rfl⟩ | ⟨⟨n,rfl⟩,rfl⟩
  · refine ⟨.recv,SocketRef.helix.inj (h.recv _ _ hl).2,rfl,?_⟩
    rintro r o' (⟨_,rfl⟩ | ⟨⟨_,he⟩,_⟩)
    · rfl
    · cases he
  · refine ⟨.send,SocketRef.helix.inj (h.send _ _ hl).2,rfl,?_⟩
    rintro r o' (⟨he,_⟩ | ⟨_,rfl⟩)
    · cases he
    · rfl

structure Closing (E : Example P η) (ls : List (Label (platform P) η ι)) (p : Process P η ι) :
    Prop where
  mainFirst : MainFirst p
  once : ∀ k, Once E k ls p
  unhooked : ∀ g e, Unhooked g e ls → (history g ls).registered e = some none

omit [DecidableEq ι] in
theorem closing_unset (h : Closing E ls p) (hprocess : ProcessStep E p l p') {g : η} {e : Event}
    {o : Op (platform P) (fun _ => Callback)} {cb : Callback} (hcall : l.1 = .call (.helix g) o)
    (ho : Registers (some cb) o e) {k : Label (platform P) η ι} (hk : k ∈ ls) {r : Option Callback}
    {o' : Op (platform P) (fun _ => Callback)} (hcall' : k.1 = .call (.helix g) o') :
    ¬ Registers r o' e := by
  intro ho'
  obtain ⟨hook,rfl,rfl,honly⟩ := hooks_hook (process_hooks hprocess) hcall ho
  obtain rfl := honly r o' ho'
  have hpos := Nat.lt_of_le_of_lt (Nat.zero_le _) (hook_spends hprocess hcall)
  exact ((h.once hook).fresh hpos).unset k hk r hcall'

theorem closing_step (h : Closing E ls p) (hkept : Kept E f ls c p)
    (hstep : Joint E M (c,p) l (c',p')) : Closing E (ls++[l]) p' where
  mainFirst := step_mainFirst h.mainFirst hstep.2
  once k := once_step (h.once k) hkept h.mainFirst hstep
  unhooked g e := by
    rintro ⟨l',hl',o,hcall,ho⟩
    rcases List.mem_append.mp hl' with hl' | hl'
    · refine history_keeps (h.unhooked g e ⟨l',hl',o,hcall,ho⟩) fun o' cb hcall' ho' => ?_
      exact closing_unset h hstep.2 hcall' ho' hl' hcall ho
    · obtain rfl := List.mem_singleton.mp hl'
      obtain ⟨a,seen⟩ := l'
      obtain rfl : a = .call (.helix g) o := hcall
      rw [history_snoc,History.record,if_pos rfl]
      exact operate_unhooks ho

theorem run_closing
    {tr : List ((Config (platform P) η ι M × Process P η ι) × Label (platform P) η ι)}
    {x : Config (platform P) η ι M × Process P η ι}
    (hrun : Run (Joint E M) (initial M f,Process.initial) tr x) : Closing E (labels tr) x.2 := by
  induction hrun with
  | nil =>
    refine ⟨.inl rfl,once_initial,?_⟩
    rintro g e ⟨l,hl,_⟩
    cases hl
  | snoc run last ih =>
    rw [labels_append]
    exact closing_step ih (run_kept run) last

/-- In every run of the example, what crashes is an event that arrives on a
socket after `CloseSocket` has taken its callback away, and all of these do.
A callback is registered once at most and never after it was taken away. -/
theorem example_crashes_iff
    {tr : List ((Config (platform P) η ι M × Process P η ι) × Label (platform P) η ι)}
    {x : Config (platform P) η ι M × Process P η ι}
    (hrun : Run (Joint E M) (initial M f,Process.initial) tr x) :
    ∀ pre a seen post, labels tr = pre++(a,seen)::post →
      ((∃ k, seen = .crashed k) ↔ ∃ g e, a = .udp (.raise (f g) e) ∧ Unhooked g e pre) ∧
      ∀ g e o cb, a = .call (.helix g) o → Registers (some cb) o e →
        ∀ l ∈ pre, ∀ r o', l.1 = .call (.helix g) o' → ¬ Registers r o' e := by
  intro pre a seen post hl
  have hleft : labels (onLeft tr) = pre++(a,seen)::post := (labels_onLeft tr).trans hl
  have hsockets := together_left hrun
  refine ⟨⟨?_,?_⟩,?_⟩
  · rintro ⟨k,rfl⟩
    obtain ⟨t,r,htracks,hexec,hr⟩ := run_tracks_at hsockets hleft
    obtain ⟨g,e,rfl⟩ := crash_raise htracks hexec hr
    have hanswer := run_answer hsockets hleft
    rw [History.answer] at hanswer
    refine ⟨g,e,rfl,?_⟩
    rcases hreg : (history g pre).registered e with _ | _ | cb
    · rw [hreg] at hanswer
      cases hanswer
    · exact history_registered hreg
    · rw [hreg] at hanswer
      cases hanswer
  · rintro ⟨g,e,rfl,hunhooked⟩
    obtain ⟨pre',t,t',rfl,hpre,_⟩ := run_at_label hrun hl
    have hreg := (run_closing hpre).unhooked g e hunhooked
    have hanswer := run_answer hsockets hleft
    rw [History.answer,hreg] at hanswer
    exact ⟨_,hanswer⟩
  · rintro g e o cb rfl ho l hlpre r o' hcall
    obtain ⟨pre',t,t',rfl,hpre,hstep⟩ := run_at_label hrun hl
    exact closing_unset (run_closing hpre) hstep.2 rfl ho hlpre hcall

theorem closed_runs (E : Example P η) (f : η ↪ ι) : ∃ tr c,
    Run (Joint E arbitrary) (initial arbitrary f,Process.initial) tr
      (c,⟨totalTxBytes,[],[.closeSocket]⟩) ∧
    Unhooked E.localSocket (.send 0) (labels tr) ∧ c.stack = [] := by
  obtain ⟨tr,c,hrun,_,hrest⟩ := transfer_runs E f
  have hclose : Leads Accepting E f
      (alone totalTxBytes [.closeSocket] (.close (.helix E.localSocket)))
      (alone totalTxBytes [.closeSocket] (.unhookSend (.helix E.localSocket))) :=
    leads_trans (leads_call (.close _) rfl (0 : Int32) trivial rfl)
      (leads_call (.unhookRecv _) rfl () trivial rfl)
  obtain ⟨tr',c',hrun',_,hrest'⟩ := hclose c hrest
  obtain ⟨d,d',hcalled,hanswered,hend,_⟩ :=
    answered hrest' E.localSocket (.setSendCallback none) ()
  let k : Location P η ι := .unhookSend (.helix E.localSocket)
  have hcall : ProcessStep E (alone totalTxBytes [.closeSocket] k)
      (.call (.helix E.localSocket) (.setSendCallback none),.nothing) _ := .call none k [] rfl
  have hwaiting : Run (Joint E arbitrary) _ _ (d,_) :=
    .snoc (run_append hrun hrun') ⟨hcalled,hcall⟩
  have hreturned : Run (Joint E arbitrary) _ _ (d',_) :=
    .snoc hwaiting ⟨hanswered,.returned none k [] rfl ()⟩
  refine ⟨_,_,hreturned,⟨(.call (.helix E.localSocket) (.setSendCallback none),.nothing),?_,_,rfl,
    .inr ⟨⟨0,rfl⟩,rfl⟩⟩,hend⟩
  simp

/-- Room is announced once more after everything is sent. -/
theorem late_event_crashes : ∃ tr x pre k,
    Run (Joint unitExample arbitrary) (initial arbitrary (.refl Bool),Process.initial) tr x ∧
    labels tr = pre++[(.udp (.raise true (.send 0)),.crashed k)] := by
  obtain ⟨tr,c,hrun,⟨l,hl,o,hcall,ho⟩,hstack⟩ := closed_runs unitExample (.refl Bool)
  have hawake : Step arbitrary c (.udp .wake,.nothing) (c.push .spontaneous) :=
    ⟨trivial,(),trivial,if_pos (by rw [Config.appRuns]; exact hstack ▸ rfl)⟩
  have hwoken : Run (Joint unitExample arbitrary) _ _ (c.push .spontaneous,_) :=
    .snoc hrun ⟨hawake,.udp .wake .nothing trivial⟩
  obtain ⟨d,hd⟩ : ∃ d, (c.push .spontaneous).raise true (.send 0) = d := ⟨_,rfl⟩
  have hraise : Step arbitrary (c.push .spontaneous) (.udp (.raise true (.send 0)),d.2) d.1 :=
    ⟨trivial,(),trivial,congrArg some hd⟩
  obtain ⟨hturns,hfollows⟩ := run_follows hwoken
  obtain ⟨p',hp'⟩ := process_accepts hfollows
    (step_continues (run_kept hwoken).tracks hturns hraise)
  have hraised : Run (Joint unitExample arbitrary) _ _ (d.1,p') := .snoc hwoken ⟨hraise,hp'⟩
  obtain ⟨k,hk⟩ := (example_crashes_iff hraised _ _ _ [] (labels_append _ _)).1.mpr
    ⟨true,.send 0,rfl,l,by simp [hl],o,hcall,ho⟩
  exact ⟨_,_,_,k,hraised,by rw [labels_append,← hk]; rfl⟩

end Runs

end Ns3Helix.TransferClosing
