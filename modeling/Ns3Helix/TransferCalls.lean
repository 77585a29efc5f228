import Ns3Helix.TransferRuns

/-!
# What the large transfer calls

Whatever the UDP layer does, and however deeply its callbacks are nested, the
example reads no byte outside its buffer and every function works on the
socket it was written for.
-/

set_option autoImplicit false

namespace Ns3Helix.TransferCalls
open Ns3Helix.SocketInterface Ns3Helix.SocketImpl Ns3Helix.SocketMachine
open Ns3Helix.SocketHistory Ns3Helix.LargeTransfer
open Ns3Helix.TransferRuns Ns3Helix.TransitionSystem

variable {P : Platform} {η ι : Type}

section Flow

variable {E : Example P η}

inductive Next (E : Example P η) : Location P η ι → Location P η ι → Prop
  | bindRemote : Next E .bindRemote .listenRemote
  | listenRemote : Next E .listenRemote .hookRemote
  | hookRemote : Next E .hookRemote .bindLocal
  | connect : Next E .connect .hookLocal
  | hookLocal : Next E .hookLocal .txSpace
  | started (a : Location P η ι) (h : a = .condition (.helix E.localSocket) ∨
      a = .close (.helix E.localSocket)) : Next E .txSpace a
  | room (s : SocketRef η ι) (dataOffset toWrite : UInt32) :
      Next E (.condition s) (.room s dataOffset toWrite)
  | full (s : SocketRef η ι) : Next E (.condition s) (.close s)
  | sending (s : SocketRef η ι) (dataOffset toWrite toWrite' : UInt32) :
      Next E (.room s dataOffset toWrite) (.sending s dataOffset toWrite')
  | sent (s : SocketRef η ι) (dataOffset toWrite : UInt32) (a : Location P η ι)
      (h : a = .condition s ∨ a = .close s) : Next E (.sending s dataOffset toWrite) a
  | recvFrom (s : SocketRef η ι) (fromAddress fromAddress' : P.Address) :
      Next E (.recvFrom s fromAddress) (.recvFrom s fromAddress')
  | close (s : SocketRef η ι) : Next E (.close s) (.unhookRecv s)
  | unhookRecv (s : SocketRef η ι) : Next E (.unhookRecv s) (.unhookSend s)

theorem afterLoop_closes {currentTxBytes : UInt32} {s : SocketRef η ι} {a : Location P η ι}
    (h : afterLoop currentTxBytes s = some a) : a = .close s := by
  unfold afterLoop at h
  split at h
  · exact (Option.some.inj h).symm
  · cases h

theorem write_next {currentTxBytes : UInt32} {s : SocketRef η ι} {a : Location P η ι}
    (h : LargeTransfer.writeUntilBufferFull currentTxBytes s = some a) :
    a = .condition s ∨ a = .close s := by
  unfold LargeTransfer.writeUntilBufferFull at h
  split at h
  · exact .inl (Option.some.inj h).symm
  · exact .inr (afterLoop_closes h)

theorem resume_next {currentTxBytes : UInt32} {a b : Location P η ι}
    {v : (a.op E).ty.denote (platform P)} (h : (resume E currentTxBytes a v).2 = some b) :
    Next E a b := by
  cases a with
  | bindRemote | listenRemote | hookRemote | connect | hookLocal | close | unhookRecv =>
    obtain rfl := Option.some.inj h
    constructor
  | bindLocal | unhookSend => cases h
  | txSpace => exact .started _ (write_next h)
  | condition s =>
    simp only [resume] at h
    split at h
    · obtain rfl := Option.some.inj h
      exact .room s _ _
    · obtain rfl := afterLoop_closes h
      exact .full s
  | room s dataOffset toWrite =>
    obtain rfl := Option.some.inj h
    exact .sending s _ _ _
  | sending s dataOffset toWrite =>
    simp only [resume] at h
    split at h
    · cases h
    · exact .sent s _ _ _ (write_next h)
  | recvFrom s fromAddress =>
    obtain ⟨packet,address⟩ := v
    cases packet with
    | none => cases h
    | some packet =>
      obtain rfl := Option.some.inj h
      exact .recvFrom s _ _

end Flow

def Phase.location : Phase P η ι → Option (Location P η ι)
  | .calling l => some l
  | .waiting l => some l
  | .returning => none

def Everywhere (Q : Location P η ι → Prop) (p : Process P η ι) : Prop :=
  ∀ x ∈ p.functions, ∀ l, Phase.location x.phase = some l → Q l

section Rule

variable {E : Example P η} {Q : Location P η ι → Prop} {p p' : Process P η ι}

theorem everywhere_cons {q : Process P η ι} {x : Function P η ι} {rest : List (Function P η ι)}
    (hq : q.functions = x :: rest) (hx : ∀ l, Phase.location x.phase = some l → Q l)
    (hrest : ∀ y ∈ rest, ∀ l, Phase.location y.phase = some l → Q l) : Everywhere Q q := by
  intro y hy
  rw [hq] at hy
  rcases List.mem_cons.mp hy with rfl | hy
  · exact hx
  · exact hrest y hy

theorem everywhere_rest {x : Function P η ι} {rest : List (Function P η ι)}
    (h : Everywhere Q p) (hp : p.functions = x :: rest) :
    (∀ l, Phase.location x.phase = some l → Q l) ∧
      ∀ y ∈ rest, ∀ l, Phase.location y.phase = some l → Q l :=
  ⟨h x (by simp [hp]),fun y hy => h y (by simp [hp,hy])⟩

theorem proceed_currentTxBytes {callback : Option Callback} {rest : List (Function P η ι)}
    (r : UInt32 × Option (Location P η ι)) : (p.proceed callback rest r).currentTxBytes = r.1 :=
  rfl

theorem everywhere_proceed {callback : Option Callback} {rest : List (Function P η ι)}
    {r : UInt32 × Option (Location P η ι)} (hr : ∀ l, r.2 = some l → Q l)
    (hrest : ∀ y ∈ rest, ∀ l, Phase.location y.phase = some l → Q l) :
    Everywhere Q (p.proceed callback rest r) := by
  intro x hx l hl
  rcases FunctionStack.mem_proceed hx with hx | hphase | ⟨l',hl',hphase⟩
  · exact hrest x hx l hl
  · rw [hphase] at hl
    cases hl
  · rw [hphase] at hl
    obtain rfl := Option.some.inj hl
    exact hr _ hl'

/-- What holds where functions start, and is handed on from call to call, holds
everywhere. -/
theorem step_everywhere {l : Label (platform P) η ι} (hstart : ∀ e, Q (SimulatorEvent.start E e))
    (hinvoke : ∀ u e cb socket, l = (.udp (.raise u e),.invoked cb socket e) →
      ∀ k, cb.start p.currentTxBytes socket = some k → Q k)
    (hresume : ∀ l v l', Q l → (resume E p.currentTxBytes l v).2 = some l' → Q l')
    (h : Everywhere Q p) (hstep : ProcessStep E p l p') : Everywhere Q p' := by
  cases hstep with
  | begin e scheduled idle =>
    refine everywhere_cons rfl (fun l' hl' => ?_) fun y hy => by cases hy
    obtain rfl := Option.some.inj hl'
    exact hstart e
  | call callback l rest hp =>
    obtain ⟨hx,hrest⟩ := everywhere_rest h hp
    exact everywhere_cons rfl hx hrest
  | returned callback l rest hp v =>
    obtain ⟨hx,hrest⟩ := everywhere_rest h hp
    exact everywhere_proceed (fun l' hl' => hresume l v l' (hx l rfl) hl') hrest
  | invoked u e cb socket =>
    exact everywhere_proceed (r := (p.currentTxBytes,_)) (hinvoke u e cb socket rfl) h
  | callbackReturn cb rest hp => exact (everywhere_rest h hp).2
  | udp move seen h' => exact h

end Rule

section Buffer

def InBuffer : Location P η ι → Prop
  | .room _ dataOffset toWrite => dataOffset.toNat + toWrite.toNat ≤ writeSize.toNat
  | .sending _ dataOffset toWrite => dataOffset.toNat + toWrite.toNat ≤ writeSize.toNat
  | _ => True

theorem min_toNat_le (a b : UInt32) : (min a b).toNat ≤ a.toNat := by
  rw [UInt32.toNat_min]
  exact Nat.min_le_left _ _

theorem toWrite_le (currentTxBytes left : UInt32) :
    (currentTxBytes % writeSize).toNat +
      (min (writeSize - currentTxBytes % writeSize) left).toNat ≤ writeSize.toNat := by
  have hlt := dataOffset_lt currentTxBytes
  have hle : currentTxBytes % writeSize ≤ writeSize := UInt32.le_iff_toNat_le.mpr (Nat.le_of_lt hlt)
  have hmin := min_toNat_le (writeSize - currentTxBytes % writeSize) left
  rw [UInt32.toNat_sub_of_le _ _ hle] at hmin
  omega

theorem data_length : data.length = writeSize.toNat := by simp [data]

theorem written_length {dataOffset toWrite : UInt32}
    (h : dataOffset.toNat + toWrite.toNat ≤ writeSize.toNat) :
    (written dataOffset toWrite).length = toWrite.toNat := by
  rw [written,List.length_take,List.length_drop,data_length]
  omega

theorem write_inBuffer {currentTxBytes : UInt32} {s : SocketRef η ι} {l : Location P η ι}
    (h : LargeTransfer.writeUntilBufferFull currentTxBytes s = some l) : InBuffer l := by
  rcases write_next h with rfl | rfl
  · trivial
  · trivial

theorem resume_inBuffer (E : Example P η) (currentTxBytes : UInt32) (l : Location P η ι)
    (v : (l.op E).ty.denote (platform P)) {l' : Location P η ι} (h : InBuffer l)
    (hl' : (resume E currentTxBytes l v).2 = some l') : InBuffer l' := by
  cases l with
  | bindRemote | listenRemote | hookRemote | connect | hookLocal | close | unhookRecv =>
    obtain rfl := Option.some.inj hl'
    trivial
  | bindLocal | unhookSend => cases hl'
  | txSpace => exact write_inBuffer hl'
  | condition s =>
    simp only [resume] at hl'
    split at hl'
    · obtain rfl := Option.some.inj hl'
      exact toWrite_le _ _
    · obtain rfl := afterLoop_closes hl'
      trivial
  | room s dataOffset toWrite =>
    obtain rfl := Option.some.inj hl'
    exact Nat.le_trans (Nat.add_le_add_left (min_toNat_le toWrite v) _) h
  | sending s dataOffset toWrite =>
    simp only [resume] at hl'
    split at hl'
    · cases hl'
    · exact write_inBuffer hl'
  | recvFrom s fromAddress =>
    obtain ⟨packet,address⟩ := v
    cases packet with
    | none => cases hl'
    | some packet =>
      obtain rfl := Option.some.inj hl'
      trivial

end Buffer

section Sockets

variable (E : Example P η)

def Placed : Location P η ι → Prop
  | .condition s => s = .helix E.localSocket
  | .room s _ _ => s = .helix E.localSocket
  | .sending s _ _ => s = .helix E.localSocket
  | .recvFrom s _ => s = .helix E.remoteSocket
  | .close s => s = .helix E.localSocket ∨ s = .helix E.remoteSocket
  | .unhookRecv s => s = .helix E.localSocket ∨ s = .helix E.remoteSocket
  | .unhookSend s => s = .helix E.localSocket ∨ s = .helix E.remoteSocket
  | _ => True

def Proper (cb : Callback) (s : SocketRef η ι) (e : Event) : Prop :=
  match cb with
  | .handleRead => s = .helix E.remoteSocket ∧ e = .recv
  | .writeUntilBufferFull => s = .helix E.localSocket ∧ ∃ n, e = .send n

structure Hooks (l : Label (platform P) η ι) : Prop where
  recv : ∀ s cb, l.1 = .call s (.setRecvCallback (some cb)) →
    cb = .handleRead ∧ s = .helix E.remoteSocket
  send : ∀ s cb, l.1 = .call s (.setSendCallback (some cb)) →
    cb = .writeUntilBufferFull ∧ s = .helix E.localSocket

variable {E} {p p' : Process P η ι}

theorem placed_helix {l : Location P η ι} (h : Placed E l) : ∃ g, l.socket E = .helix g := by
  cases l with
  | condition s | room s | sending s | recvFrom s => exact ⟨_,h⟩
  | close s | unhookRecv s | unhookSend s =>
    rcases h with rfl | rfl
    · exact ⟨_,rfl⟩
    · exact ⟨_,rfl⟩
  | bindRemote | listenRemote | hookRemote | bindLocal | connect | hookLocal | txSpace =>
    exact ⟨_,rfl⟩

theorem location_closes {k : Location P η ι} {s : SocketRef η ι} (hs : s = k.socket E)
    (ho : .close = k.op E) : k = .close s := by
  cases k with
  | close s' => rw [hs,Location.socket]
  | _ => cases ho

theorem location_hooks (l : Location P η ι) :
    Hooks E ((.call (l.socket E) (l.op E),.nothing) : Label (platform P) η ι) where
  recv s cb h := by
    cases l <;> cases h
    exact ⟨rfl,rfl⟩
  send s cb h := by
    cases l <;> cases h
    exact ⟨rfl,rfl⟩

theorem process_hooks {l : Label (platform P) η ι} (hstep : ProcessStep E p l p') :
    Hooks E l := by
  cases hstep with
  | begin e _ _ => exact location_hooks (e.start E)
  | call callback l rest hp => exact location_hooks l
  | returned | invoked | callbackReturn | udp =>
    exact ⟨fun _ _ h => (by cases h),fun _ _ h => (by cases h)⟩

theorem writer_placed {l : Location P η ι} (h : l = .condition (.helix E.localSocket) ∨
    l = .close (.helix E.localSocket)) : Placed E l := by
  rcases h with rfl | rfl
  · rfl
  · exact .inl rfl

theorem next_placed {a b : Location P η ι} (h : Next E a b) (ha : Placed E a) : Placed E b := by
  cases h with
  | bindRemote | listenRemote | hookRemote | connect | hookLocal => trivial
  | started _ h => exact writer_placed h
  | full s => exact .inl ha
  | sent s _ _ _ h =>
    obtain rfl : s = .helix E.localSocket := ha
    exact writer_placed h
  | room | sending | recvFrom | close | unhookRecv => exact ha

end Sockets

section Runs

variable [DecidableEq η] [DecidableEq ι] {E : Example P η} {M : UdpMachine (platform P) ι}
  {f : η ↪ ι} {ls : List (Label (platform P) η ι)} {c c' : Config (platform P) η ι M}
  {p p' : Process P η ι} {l : Label (platform P) η ι}

def Registers (r : Option Callback) (o : Op (platform P) (fun _ => Callback)) (e : Event) : Prop :=
  (e = .recv ∧ o = .setRecvCallback r) ∨ (∃ n, e = .send n) ∧ o = .setSendCallback r

omit [DecidableEq η] [DecidableEq ι] in
theorem operate_registered {H : History (platform P)} {o : Op (platform P) (fun _ => Callback)}
    {e : Event} {r : Option Callback} (h : (H.operate o).registered e = some r) :
    H.registered e = some r ∨ Registers r o e := by
  cases e with
  | recv =>
    cases o with
    | setRecvCallback cb =>
      obtain rfl := Option.some.inj h
      exact .inr (.inl ⟨rfl,rfl⟩)
    | _ => exact .inl h
  | send n =>
    cases o with
    | setSendCallback cb =>
      obtain rfl := Option.some.inj h
      exact .inr (.inr ⟨⟨n,rfl⟩,rfl⟩)
    | _ => exact .inl h
  | connectionSucceeded | connectionFailed | normalClose | errorClose | dataSent => cases h

omit [DecidableEq ι] in
theorem history_registered {g : η} {e : Event} {r : Option Callback}
    (h : (history g ls).registered e = some r) :
    ∃ l ∈ ls, ∃ o, l.1 = .call (.helix g) o ∧ Registers r o e := by
  induction ls using List.reverseRecOn with
  | nil => cases e <;> cases h
  | append_singleton ls l ih =>
    have earlier : (history g ls).registered e = some r →
        ∃ k ∈ ls++[l], ∃ o, k.1 = .call (.helix g) o ∧ Registers r o e := by
      intro h
      obtain ⟨k,hk,ho⟩ := ih h
      exact ⟨k,List.mem_append_left _ hk,ho⟩
    obtain ⟨a,seen⟩ := l
    rw [history_snoc] at h
    cases a with
    | call s o =>
      cases s with
      | udp u => exact earlier h
      | helix g' =>
        by_cases hg : g' = g
        · subst hg
          rw [History.record,if_pos rfl] at h
          rcases operate_registered h with h | hr
          · exact earlier h
          · exact ⟨_,List.mem_append_right _ (List.mem_singleton_self _),o,rfl,hr⟩
        · rw [History.record,if_neg hg] at h
          exact earlier h
    | inherited s i =>
      cases s with
      | udp u => exact earlier h
      | helix g' =>
        rw [History.record] at h
        split at h
        · exact earlier (by cases e <;> exact h)
        · exact earlier h
    | callbackReturn => exact earlier h
    | udp move => exact earlier h

/-- What a run of the example keeps: its functions and their callbacks stay
with their sockets, and no UDP socket is used directly. -/
structure Kept (E : Example P η) (f : η ↪ ι) (ls : List (Label (platform P) η ι))
    (c : Config (platform P) η ι M) (p : Process P η ι) : Prop where
  tracks : Tracks f ls c
  placed : Everywhere (Placed E) p
  unused : ∀ u, (∀ h, f h ≠ u) → ∀ s, (c.udp u).callback s = none
  hooks : ∀ l ∈ ls, Hooks E l

/-- Only a registered callback is invoked, for its event and with its socket. -/
theorem invoked_registered (h : Kept E f ls c p) {u : ι} {e e' : Event} {cb : Callback}
    {s : SocketRef η ι} (hseen : (c.raise u e).2 = .invoked cb s e') :
    ∃ g, f g = u ∧ s = .helix g ∧ e' = e ∧ (history g ls).registered e = some (some cb) := by
  by_cases hu : ∃ g, f g = u
  · obtain ⟨g,rfl⟩ := hu
    rw [raise_answer h.tracks g e,History.answer] at hseen
    rcases hr : (history g ls).registered e with _ | _ | a
    · rw [hr] at hseen
      cases hseen
    · rw [hr] at hseen
      cases hseen
    · rw [hr] at hseen
      cases hseen
      exact ⟨g,rfl,rfl,rfl,hr⟩
  · rw [Config.raise_none (h.unused u (fun g hg => hu ⟨g,hg⟩) e.slot)] at hseen
    cases hseen

theorem invoked_proper (h : Kept E f ls c p) {u : ι} {e e' : Event} {cb : Callback}
    {s : SocketRef η ι} (hseen : (c.raise u e).2 = .invoked cb s e') : Proper E cb s e' := by
  obtain ⟨g,-,rfl,rfl,hr⟩ := invoked_registered h hseen
  obtain ⟨l,hl,o,ha,⟨rfl,rfl⟩ | ⟨⟨n,rfl⟩,rfl⟩⟩ := history_registered hr
  · obtain ⟨rfl,hs⟩ := (h.hooks l hl).recv _ _ ha
    exact ⟨hs,rfl⟩
  · obtain ⟨rfl,hs⟩ := (h.hooks l hl).send _ _ ha
    exact ⟨hs,n,rfl⟩

omit [DecidableEq ι] in
theorem kept_initial (M : UdpMachine (platform P) ι) (f : η ↪ ι) :
    Kept E f [] (initial M f) (Process.initial : Process P η ι) where
  tracks := tracks_initial M f
  placed x hx := by cases hx
  unused _ _ _ := rfl
  hooks _ hl := by cases hl

omit [DecidableEq ι] in
theorem kept_machine (h : Kept E f ls c p) (s : M.State) : Kept E f ls (c.withMachine s) p :=
  ⟨tracks_machine h.tracks s,h.placed,h.unused,h.hooks⟩

omit [DecidableEq η] [DecidableEq ι] in
theorem start_placed (e : SimulatorEvent) : Placed E (e.start E : Location P η ι) := by
  cases e with
  | main | startFlow => trivial
  | closeSocket => exact .inr rfl

omit [DecidableEq η] [DecidableEq ι] in
theorem process_calls (h : Everywhere (Placed E) p) (hstep : ProcessStep E p l p') :
    (∃ g o, l.1 = .call (.helix g) o) ∨ (∃ move, l.1 = .udp move) ∨ l.1 = .callbackReturn := by
  cases hstep with
  | begin e _ _ =>
    obtain ⟨g,hg⟩ := placed_helix (start_placed (E := E) (ι := ι) e)
    exact .inl ⟨g,_,by rw [hg]⟩
  | call callback k rest hp =>
    obtain ⟨g,hg⟩ := placed_helix ((everywhere_rest h hp).1 k rfl)
    exact .inl ⟨g,_,by rw [hg]⟩
  | returned | invoked | udp => exact .inr (.inl ⟨_,rfl⟩)
  | callbackReturn => exact .inr (.inr rfl)

theorem kept_step (h : Kept E f ls c p) (hstep : Joint E M (c,p) l (c',p')) :
    Kept E f (ls++[l]) c' p' := by
  obtain ⟨hmachine,hprocess⟩ := hstep
  refine ⟨tracks_step h.tracks hmachine,?_,?_,?_⟩
  · refine step_everywhere start_placed ?_ (fun k v k' hk hk' => next_placed (resume_next hk') hk)
      h.placed hprocess
    rintro u e cb s rfl k hk
    obtain ⟨_,t,_,hexec⟩ := hmachine
    have hseen : ((c.withMachine t).raise u e).2 = .invoked cb s e := by
      rw [Config.exec_raise hexec]
    have hproper := invoked_proper (kept_machine h t) hseen
    cases cb with
    | handleRead =>
      obtain rfl := Option.some.inj hk
      exact hproper.1
    | writeUntilBufferFull =>
      obtain ⟨rfl,_⟩ := hproper
      exact writer_placed (write_next hk)
  · intro u hu s
    obtain ⟨_,hudp,_⟩ := step_after h.tracks.echoing hmachine
    rw [hudp]
    rcases process_calls h.placed hprocess with ⟨g,o,ha⟩ | ⟨move,ha⟩ | ha
    · simp only [ha,Config.udpAfter,h.tracks.owner g,Function.update_of_ne (hu g).symm]
      exact h.unused u hu s
    · rw [ha]
      exact h.unused u hu s
    · rw [ha]
      exact h.unused u hu s
  · intro k hk
    rcases List.mem_append.mp hk with hk | hk
    · exact h.hooks k hk
    · obtain rfl := List.mem_singleton.mp hk
      exact process_hooks hprocess

theorem run_kept {tr : List ((Config (platform P) η ι M × Process P η ι) × Label (platform P) η ι)}
    {x : Config (platform P) η ι M × Process P η ι}
    (hrun : Run (Joint E M) (initial M f,Process.initial) tr x) :
    Kept E f (labels tr) x.1 x.2 :=
  run_history (fun ls (x : Config (platform P) η ι M × Process P η ι) => Kept E f ls x.1 x.2)
    (kept_initial M f) (fun _ _ _ _ => kept_step) hrun

omit [DecidableEq η] [DecidableEq ι] in
theorem process_inBuffer (h : Everywhere InBuffer p) (hstep : ProcessStep E p l p') :
    Everywhere InBuffer p' := by
  refine step_everywhere (fun e => ?_) ?_ (fun k v k' => resume_inBuffer E _ k v) h hstep
  · cases e <;> trivial
  · rintro u e cb s rfl k hk
    cases cb with
    | handleRead =>
      obtain rfl := Option.some.inj hk
      trivial
    | writeUntilBufferFull => exact write_inBuffer hk

theorem run_inBuffer
    {tr : List ((Config (platform P) η ι M × Process P η ι) × Label (platform P) η ι)}
    {x : Config (platform P) η ι M × Process P η ι}
    (hrun : Run (Joint E M) (initial M f,Process.initial) tr x) : Everywhere InBuffer x.2 := by
  have hinit : Everywhere InBuffer (Process.initial : Process P η ι) := by
    intro x hx
    cases hx
  exact run_invariant (Everywhere InBuffer) hinit (fun _ _ _ => process_inBuffer)
    (together_right hrun)

/-- A call of `Send` is the one a function of process `p` has come to. It is on
the sender's socket, and the bytes it reads, from `&data[dataOffset]` on, are all
in the buffer. A callback is invoked for its event on its socket. -/
structure WellCalled (E : Example P η) (p : Process P η ι) (l : Label (platform P) η ι) : Prop where
  send : ∀ s packet flags, l.1 = .call s (.send packet flags) →
    ∃ callback dataOffset toWrite rest,
      p.functions = ⟨callback,.calling (.sending s dataOffset toWrite)⟩ :: rest ∧
      s = .helix E.localSocket ∧ dataOffset.toNat + toWrite.toNat ≤ data.length ∧
      (written dataOffset toWrite).length = toWrite.toNat ∧
      packet = some (E.createPacket (written dataOffset toWrite))
  invoked : ∀ cb s e, l.2 = .invoked cb s e → Proper E cb s e

omit [DecidableEq η] [DecidableEq ι] in
theorem start_wellCalled (e : SimulatorEvent) : WellCalled E p
    (.call ((e.start E).socket E) ((e.start E : Location P η ι).op E),.nothing) where
  send s packet flags h := by cases e <;> cases h
  invoked cb s e h := by cases h

omit [DecidableEq η] [DecidableEq ι] in
theorem location_wellCalled {callback : Option Callback} {k : Location P η ι}
    {rest : List (Function P η ι)} (hp : p.functions = ⟨callback,.calling k⟩ :: rest)
    (hplaced : Everywhere (Placed E) p) (hbuffer : Everywhere InBuffer p) :
    WellCalled E p (.call (k.socket E) (k.op E),.nothing) where
  send s packet flags h := by
    have placed : Placed E k := (everywhere_rest hplaced hp).1 k rfl
    have inBuffer : InBuffer k := (everywhere_rest hbuffer hp).1 k rfl
    cases k with
    | sending s' dataOffset toWrite =>
      cases h
      refine ⟨callback,dataOffset,toWrite,rest,hp,placed,?_,written_length inBuffer,rfl⟩
      rw [data_length]
      exact inBuffer
    | _ => cases h
  invoked cb s e h := by cases h

theorem step_wellCalled (h : Kept E f ls c p) (hbuffer : Everywhere InBuffer p)
    (hstep : Joint E M (c,p) l (c',p')) : WellCalled E p l := by
  obtain ⟨⟨_,t,_,hexec⟩,hprocess⟩ := hstep
  cases hprocess with
  | begin e _ _ => exact start_wellCalled e
  | call callback k rest hp => exact location_wellCalled hp h.placed hbuffer
  | returned => exact ⟨fun _ _ _ h => (by cases h),fun _ _ _ h => (by cases h)⟩
  | callbackReturn => exact ⟨fun _ _ _ h => (by cases h),fun _ _ _ h => (by cases h)⟩
  | invoked u e cb s =>
    refine ⟨fun _ _ _ h => (by cases h),fun cb' s' e' hseen => ?_⟩
    cases hseen
    exact invoked_proper (kept_machine h t) (by rw [Config.exec_raise hexec])
  | udp move seen hseen =>
    refine ⟨fun _ _ _ h => (by cases h),fun cb s e h' => ?_⟩
    obtain rfl : seen = _ := h'
    exact hseen.elim

/-- However callbacks are nested, no `Send` reads a byte outside the buffer, and
no function meets another's socket or event. -/
theorem example_calls
    {tr : List ((Config (platform P) η ι M × Process P η ι) × Label (platform P) η ι)}
    {x : Config (platform P) η ι M × Process P η ι}
    (hrun : Run (Joint E M) (initial M f,Process.initial) tr x) :
    ∀ e ∈ tr, WellCalled E e.1.2 e.2 := by
  rintro ⟨⟨c,p⟩,l⟩ he
  obtain ⟨pre,post,rfl⟩ := List.append_of_mem he
  obtain ⟨hpre,_,hstep,_⟩ := run_at pre post hrun
  exact step_wellCalled (run_kept hpre) (run_inBuffer hpre) hstep

theorem transfer_wellCalled : ∃ tr x,
    Run (Joint unitExample arbitrary) (initial arbitrary (.refl Bool),Process.initial) tr x ∧
    x.2.currentTxBytes = totalTxBytes ∧ ∀ e ∈ tr, WellCalled unitExample e.1.2 e.2 := by
  obtain ⟨tr,c,hrun,_⟩ := transfer_runs unitExample (.refl Bool)
  exact ⟨tr,_,hrun,rfl,example_calls hrun⟩

end Runs

end Ns3Helix.TransferCalls
