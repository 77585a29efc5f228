import Mathlib.Data.Nat.Periodic
import Ns3Helix.TransferCalls

/-!
# The stream the large transfer sends

The buffer holds the alphabet forty times over, so that its bytes can be
written in any portions without a seam. As long as the sender is not entered
between taking an offset from its counter and adding to the counter, the
bytes that are accepted are the endless alphabet from its beginning.
-/

set_option autoImplicit false

namespace Ns3Helix.TransferStream
open Ns3Helix.SocketInterface Ns3Helix.SocketImpl Ns3Helix.SocketMachine
open Ns3Helix.LargeTransfer Ns3Helix.TransferRuns Ns3Helix.TransferCalls
open Ns3Helix.TransitionSystem

section Bytes

theorem periodic_extend {α : Type*} {g : ℕ → α} {n a k : ℕ} (hg : Function.Periodic g n)
    (h : a % n + k ≤ n) : (List.range (a+k)).map g =
      (List.range a).map g ++ (((List.range n).map g).drop (a % n)).take k := by
  rw [List.range_add,List.map_append]
  congr 1
  apply List.ext_getElem
  · simp
    omega
  · intro i hi hi'
    have hmod : g (a+i) = g (a % n+i) := by
      rw [← hg.map_mod_nat,← hg.map_mod_nat (a % n+i),Nat.mod_add_mod]
    simpa using hmod

def letter (i : ℕ) : UInt8 := toascii (97 + UInt32.ofNat (i % 26))

theorem letter_periodic : Function.Periodic letter writeSize.toNat := by
  intro i
  have hmod : (i + writeSize.toNat) % 26 = i % 26 := by
    rw [show writeSize.toNat = 26*40 from rfl,Nat.add_mul_mod_self_left]
  rw [letter,letter,hmod]

theorem data_letters : data = (List.range writeSize.toNat).map letter := by
  refine List.map_congr_left fun i hi => ?_
  have hi' : i < writeSize.toNat := List.mem_range.mp hi
  have hsize : i < UInt32.size := Nat.lt_trans hi' (by decide)
  have hmod : UInt32.ofNat i % 26 = UInt32.ofNat (i % 26) := by
    apply UInt32.toNat_inj.mp
    rw [UInt32.toNat_mod,UInt32.toNat_ofNat_of_lt' hsize,
      UInt32.toNat_ofNat_of_lt' (Nat.lt_of_le_of_lt (Nat.mod_le i 26) hsize)]
    rfl
  rw [letter,hmod]

def stream (n : ℕ) : List UInt8 := (List.range n).map letter

/-- What is written from the offset of a counter continues the stream. -/
theorem stream_extend {currentTxBytes toWrite : UInt32} {k : ℕ}
    (hbuffer : (currentTxBytes % writeSize).toNat + toWrite.toNat ≤ writeSize.toNat)
    (hk : k ≤ toWrite.toNat) : stream (currentTxBytes.toNat+k) =
      stream currentTxBytes.toNat ++
        (written (currentTxBytes % writeSize) toWrite).take k := by
  rw [UInt32.toNat_mod] at hbuffer
  have hbound : currentTxBytes.toNat % writeSize.toNat + k ≤ writeSize.toNat := by omega
  rw [written,List.take_take,Nat.min_eq_left hk,data_letters,UInt32.toNat_mod]
  exact periodic_extend letter_periodic hbound

end Bytes

variable {P : Platform} {η ι : Type}

section Sending

def Committed : Location P η ι → Prop
  | .room _ _ _ => True
  | .sending _ _ _ => True
  | _ => False

def Sender : Location P η ι → Prop
  | .connect => True
  | .hookLocal => True
  | .txSpace => True
  | .condition _ => True
  | .room _ _ _ => True
  | .sending _ _ _ => True
  | _ => False

/-- What a function still relies on: the offset belongs to the counter and no
more is written than is left, or there is nothing left. -/
def OnStream (E : Example P η) (currentTxBytes : UInt32) : Location P η ι → Prop
  | .room _ dataOffset toWrite => dataOffset = currentTxBytes % writeSize ∧
      toWrite ≤ totalTxBytes - currentTxBytes
  | .sending _ dataOffset toWrite => dataOffset = currentTxBytes % writeSize ∧
      toWrite ≤ totalTxBytes - currentTxBytes
  | .close s => s = .helix E.localSocket → currentTxBytes = totalTxBytes
  | _ => True

/-- Whoever is about to take an offset finds nobody committed below. -/
def Apart (x y : Function P η ι) : Prop :=
  ∀ l l', Phase.location x.phase = some l → Sender l →
    Phase.location y.phase = some l' → ¬ Committed l'

structure Streaming (E : Example P η) (p : Process P η ι) : Prop where
  bound : p.currentTxBytes ≤ totalTxBytes
  onStream : Everywhere (OnStream E p.currentTxBytes) p
  apart : p.functions.Pairwise Apart
  inBuffer : Everywhere InBuffer p

def acceptedAt (p : Process P η ι) (l : Label (platform P) η ι) : List UInt8 :=
  match l.2 with
  | .returned _ ⟨.int,(amountSent : Int32)⟩ => match p.functions with
    | ⟨_,.waiting (.sending _ dataOffset toWrite)⟩ :: _ =>
      if amountSent < 0 then [] else
        (written dataOffset toWrite).take amountSent.toUInt32.toNat
    | _ => []
  | _ => []

/-- The sender is not entered while it is committed. -/
def Undisturbed (p : Process P η ι) (l : Label (platform P) η ι) : Prop :=
  ∀ s e, l.2 = .invoked .writeUntilBufferFull s e → Everywhere (fun l => ¬ Committed l) p

def Frugal (p : Process P η ι) (l : Label (platform P) η ι) : Prop :=
  ∀ callback s dataOffset toWrite rest r (amountSent : Int32),
    p.functions = ⟨callback,.waiting (.sending s dataOffset toWrite)⟩ :: rest →
    l.2 = .returned r ⟨.int,amountSent⟩ → 0 ≤ amountSent → amountSent.toUInt32 ≤ toWrite

variable {E : Example P η} {p p' : Process P η ι} {l : Label (platform P) η ι}

section Replacing

variable {q : Process P η ι} {x : Function P η ι} {callback : Option Callback}
  {k : Location P η ι} {rest : List (Function P η ι)}

theorem apart_rest (h : Streaming E p) (hp : p.functions = x :: rest) :
    (∀ y ∈ rest, Apart x y) ∧ rest.Pairwise Apart := by
  have hapart := h.apart
  rwa [hp,List.pairwise_cons] at hapart

theorem streaming_call (h : Streaming E p) (hp : p.functions = ⟨callback,.calling k⟩ :: rest)
    (hq : q.functions = ⟨callback,.waiting k⟩ :: rest) (hcur : q.currentTxBytes = p.currentTxBytes)
    (hbuffer : Everywhere InBuffer q) : Streaming E q where
  bound := hcur ▸ h.bound
  onStream := by
    obtain ⟨hx,hrest⟩ := everywhere_rest h.onStream hp
    rw [hcur]
    exact everywhere_cons hq hx hrest
  apart := by
    obtain ⟨hx,hrest⟩ := apart_rest h hp
    rw [hq,List.pairwise_cons]
    exact ⟨hx,hrest⟩
  inBuffer := hbuffer

theorem apart_proceed (hpairs : rest.Pairwise Apart) {next : Option (Location P η ι)}
    (hnext : ∀ k, next = some k → Sender k →
      ∀ y ∈ rest, ∀ k', Phase.location y.phase = some k' → ¬ Committed k') :
    (FunctionStack.proceed callback rest next).Pairwise Apart := by
  cases next with
  | some k =>
    refine List.pairwise_cons.mpr ⟨fun y hy l l' hl hsender hl' => ?_,hpairs⟩
    obtain rfl := Option.some.inj hl
    exact hnext k rfl hsender y hy l' hl'
  | none =>
    cases callback with
    | some cb => exact List.pairwise_cons.mpr ⟨fun y hy l l' hl => (by cases hl),hpairs⟩
    | none => exact hpairs

theorem streaming_proceed (h : Streaming E p) (hp : p.functions = ⟨callback,.waiting k⟩ :: rest)
    {r : UInt32 × Option (Location P η ι)} (hbound : r.1 ≤ totalTxBytes)
    (hrest : ∀ y ∈ rest, ∀ k', Phase.location y.phase = some k' → OnStream E r.1 k')
    (hnext : ∀ k', r.2 = some k' → OnStream E r.1 k' ∧ (Sender k' → Sender k))
    (hbuffer : Everywhere InBuffer (p.proceed callback rest r)) :
    Streaming E (p.proceed callback rest r) where
  bound := hbound
  onStream := everywhere_proceed (fun k' hk' => (hnext k' hk').1) hrest
  apart := by
    obtain ⟨hx,hpairs⟩ := apart_rest h hp
    refine apart_proceed hpairs fun k' hk' hsender y hy l' hl' => ?_
    exact hx y hy k l' rfl ((hnext k' hk').2 hsender) hl'
  inBuffer := hbuffer

theorem streaming_drop (h : Streaming E p) (hp : p.functions = x :: rest)
    (hq : q.functions = rest) (hcur : q.currentTxBytes = p.currentTxBytes)
    (hbuffer : Everywhere InBuffer q) : Streaming E q where
  bound := hcur ▸ h.bound
  onStream := by
    rw [hcur]
    intro y hy
    exact h.onStream y (by rw [hp,← hq]; exact List.mem_cons_of_mem _ hy)
  apart := by
    rw [hq]
    exact (apart_rest h hp).2
  inBuffer := hbuffer

theorem streaming_invoked (h : Streaming E p) {s : SocketRef η ι} {cb : Callback}
    (hstart : ∀ k, cb.start p.currentTxBytes s = some k → OnStream E p.currentTxBytes k ∧
      (Sender k → Everywhere (fun l => ¬ Committed l) p))
    (hbuffer : Everywhere InBuffer (p.invoke s cb)) : Streaming E (p.invoke s cb) where
  bound := h.bound
  onStream :=
    everywhere_proceed (r := (p.currentTxBytes,_)) (fun k hk => (hstart k hk).1) h.onStream
  apart := apart_proceed h.apart fun k hk hsender y hy => (hstart k hk).2 hsender y hy
  inBuffer := hbuffer

end Replacing

theorem afterLoop_onStream {currentTxBytes : UInt32} (hbound : currentTxBytes ≤ totalTxBytes)
    {s : SocketRef η ι} {k : Location P η ι} (h : afterLoop currentTxBytes s = some k) :
    OnStream E currentTxBytes k ∧ ¬ Sender k := by
  unfold afterLoop at h
  split at h
  next hge =>
    obtain rfl := Option.some.inj h
    exact ⟨fun _ => UInt32.le_antisymm hbound hge,id⟩
  next => cases h

theorem write_onStream {currentTxBytes : UInt32} (hbound : currentTxBytes ≤ totalTxBytes)
    {s : SocketRef η ι} {k : Location P η ι}
    (h : LargeTransfer.writeUntilBufferFull currentTxBytes s = some k) :
    OnStream E currentTxBytes k := by
  unfold LargeTransfer.writeUntilBufferFull at h
  split at h
  · obtain rfl := Option.some.inj h
    trivial
  · exact (afterLoop_onStream hbound h).1

theorem resume_quiet {currentTxBytes : UInt32} (hbound : currentTxBytes ≤ totalTxBytes)
    {k : Location P η ι} (hk : OnStream E currentTxBytes k) (hquiet : ¬ IsSending k)
    (v : (k.op E).ty.denote (platform P)) : (resume E currentTxBytes k v).1 = currentTxBytes ∧
      ∀ k', (resume E currentTxBytes k v).2 = some k' →
        OnStream E currentTxBytes k' ∧ (Sender k' → Sender k) := by
  cases k with
  | bindRemote | listenRemote | hookRemote | connect | hookLocal | unhookRecv =>
    refine ⟨rfl,fun k' hk' => ?_⟩
    obtain rfl := Option.some.inj hk'
    exact ⟨trivial,id⟩
  | bindLocal | unhookSend => exact ⟨rfl,fun k' hk' => by cases hk'⟩
  | close s =>
    refine ⟨rfl,fun k' hk' => ?_⟩
    obtain rfl := Option.some.inj hk'
    exact ⟨trivial,id⟩
  | txSpace => exact ⟨rfl,fun k' hk' => ⟨write_onStream hbound hk',fun _ => trivial⟩⟩
  | condition s =>
    simp only [resume]
    split
    · refine ⟨rfl,fun k' hk' => ?_⟩
      obtain rfl := Option.some.inj hk'
      refine ⟨⟨rfl,UInt32.le_iff_toNat_le.mpr ?_⟩,fun _ => trivial⟩
      rw [UInt32.toNat_min]
      exact Nat.min_le_right _ _
    · refine ⟨rfl,fun k' hk' => ?_⟩
      obtain ⟨hstream,hnot⟩ := afterLoop_onStream hbound hk'
      exact ⟨hstream,fun hsender => absurd hsender hnot⟩
  | room s dataOffset toWrite =>
    refine ⟨rfl,fun k' hk' => ?_⟩
    obtain rfl := Option.some.inj hk'
    have hle : min toWrite v ≤ toWrite := UInt32.le_iff_toNat_le.mpr (min_toNat_le toWrite v)
    exact ⟨⟨hk.1,UInt32.le_trans hle hk.2⟩,fun _ => trivial⟩
  | sending s dataOffset toWrite => exact absurd trivial hquiet
  | recvFrom s fromAddress =>
    obtain ⟨packet,address⟩ := v
    cases packet with
    | none => exact ⟨rfl,fun k' hk' => by cases hk'⟩
    | some packet =>
      refine ⟨rfl,fun k' hk' => ?_⟩
      obtain rfl := Option.some.inj hk'
      exact ⟨trivial,id⟩

theorem start_onStream (currentTxBytes : UInt32) (e : SimulatorEvent) :
    OnStream E currentTxBytes (e.start E : Location P η ι) := by
  cases e with
  | main | startFlow => trivial
  | closeSocket => exact fun h => absurd (SocketRef.helix.inj h).symm E.distinct

theorem acceptedAt_quiet {callback : Option Callback} {k : Location P η ι}
    {rest : List (Function P η ι)} (hp : p.functions = ⟨callback,.waiting k⟩ :: rest)
    (hquiet : ¬ IsSending k) (v : (k.op E).ty.denote (platform P)) (move : UdpMove (platform P) ι) :
    acceptedAt p (.udp move,.returned (k.socket E) ⟨_,v⟩) = [] := by
  cases k with
  | sending => exact absurd trivial hquiet
  | _ =>
    simp only [acceptedAt,hp]
    rfl

/-- Whoever is below `Send` is not committed, so that the counter may move. -/
theorem rest_onStream (h : Streaming E p) {callback : Option Callback} {s : SocketRef η ι}
    {dataOffset toWrite : UInt32} {rest : List (Function P η ι)}
    (hp : p.functions = ⟨callback,.waiting (.sending s dataOffset toWrite)⟩ :: rest)
    {currentTxBytes : UInt32}
    (hfull : p.currentTxBytes = totalTxBytes → currentTxBytes = p.currentTxBytes) :
    ∀ y ∈ rest, ∀ k, Phase.location y.phase = some k → OnStream E currentTxBytes k := by
  intro y hy k hk
  have hstream := (everywhere_rest h.onStream hp).2 y hy k hk
  have hfree := (apart_rest h hp).1 y hy _ k rfl trivial hk
  cases k with
  | room | sending => exact absurd trivial hfree
  | close s =>
    intro hs
    have hcur := hstream hs
    rw [hfull hcur,hcur]
  | _ => trivial

theorem streaming_sent (h : Streaming E p) {callback : Option Callback} {s : SocketRef η ι}
    {dataOffset toWrite : UInt32} {rest : List (Function P η ι)}
    (hp : p.functions = ⟨callback,.waiting (.sending s dataOffset toWrite)⟩ :: rest)
    (amountSent : Int32) (hfrugal : 0 ≤ amountSent → amountSent.toUInt32 ≤ toWrite)
    (hbuffer : Everywhere InBuffer (p.proceed callback rest
      (resume E p.currentTxBytes (.sending s dataOffset toWrite) amountSent))) :
    Streaming E (p.proceed callback rest
      (resume E p.currentTxBytes (.sending s dataOffset toWrite) amountSent)) ∧
    stream (resume E p.currentTxBytes (.sending s dataOffset toWrite) amountSent).1.toNat =
      stream p.currentTxBytes.toNat ++ if amountSent < 0 then [] else
        (written dataOffset toWrite).take amountSent.toUInt32.toNat := by
  have hstream := (everywhere_rest h.onStream hp).1 _ rfl
  have hin := (everywhere_rest h.inBuffer hp).1 _ rfl
  obtain ⟨rfl,hleft⟩ := hstream
  by_cases hneg : amountSent < 0
  · simp only [resume,if_pos hneg] at hbuffer ⊢
    exact ⟨streaming_proceed h hp h.bound (rest_onStream h hp fun _ => rfl)
      (fun k hk => (by cases hk)) hbuffer,(List.append_nil _).symm⟩
  · have hsent := hfrugal (Int32.not_lt.mp hneg)
    obtain ⟨hbound,hsum⟩ := add_le_total h.bound hleft hsent
    simp only [resume,if_neg hneg] at hbuffer ⊢
    constructor
    · refine streaming_proceed h hp hbound (rest_onStream h hp fun hcur => ?_)
        (fun k hk => ⟨write_onStream hbound hk,fun _ => trivial⟩) hbuffer
      -- with nothing left, nothing is accepted
      have hle : p.currentTxBytes ≤ p.currentTxBytes + amountSent.toUInt32 := by
        rw [UInt32.le_iff_toNat_le,hsum]
        exact Nat.le_add_right _ _
      exact UInt32.le_antisymm (hcur ▸ hbound) hle
    · rw [hsum]
      exact stream_extend hin (UInt32.le_iff_toNat_le.mp hsent)

/-- Between two entries of the sender the bytes accepted continue the stream. -/
theorem streaming_step (h : Streaming E p) (hfree : Undisturbed p l) (hfrugal : Frugal p l)
    (hstep : ProcessStep E p l p') : Streaming E p' ∧
      stream p'.currentTxBytes.toNat = stream p.currentTxBytes.toNat ++ acceptedAt p l := by
  have hbuffer := process_inBuffer h.inBuffer hstep
  cases hstep with
  | begin e scheduled idle =>
    refine ⟨⟨h.bound,?_,List.pairwise_singleton _ _,hbuffer⟩,(List.append_nil _).symm⟩
    refine everywhere_cons rfl (fun k hk => ?_) fun y hy => by cases hy
    obtain rfl := Option.some.inj hk
    exact start_onStream _ e
  | call callback k rest hp =>
    exact ⟨streaming_call h hp rfl rfl hbuffer,(List.append_nil _).symm⟩
  | returned callback k rest hp v =>
    obtain ⟨hk,hrest⟩ := everywhere_rest h.onStream hp
    by_cases hquiet : IsSending k
    · cases k with
      | sending s dataOffset toWrite =>
        obtain ⟨hstream,hbytes⟩ := streaming_sent h hp v
          (hfrugal callback s dataOffset toWrite rest _ v hp rfl) hbuffer
        refine ⟨hstream,?_⟩
        rw [proceed_currentTxBytes,hbytes]
        simp only [acceptedAt,hp]
        rfl
      | _ => exact hquiet.elim
    · obtain ⟨hcur,hnext⟩ := resume_quiet h.bound (hk k rfl) hquiet v
      rw [acceptedAt_quiet hp hquiet v,List.append_nil,proceed_currentTxBytes,hcur]
      refine ⟨streaming_proceed h hp ?_ ?_ ?_ hbuffer,rfl⟩
      · rw [hcur]
        exact h.bound
      · rw [hcur]
        exact hrest
      · rw [hcur]
        exact hnext
  | invoked u e cb s =>
    refine ⟨streaming_invoked h (fun k hk => ?_) hbuffer,(List.append_nil _).symm⟩
    cases cb with
    | handleRead =>
      obtain rfl := Option.some.inj hk
      exact ⟨trivial,fun hsender => hsender.elim⟩
    | writeUntilBufferFull => exact ⟨write_onStream h.bound hk,fun _ => hfree s e rfl⟩
  | callbackReturn cb rest hp =>
    exact ⟨streaming_drop h hp rfl rfl hbuffer,(List.append_nil _).symm⟩
  | udp move seen hseen =>
    refine ⟨h,?_⟩
    cases seen with
    | returned => exact hseen.elim
    | _ => exact (List.append_nil _).symm

end Sending

section Runs

variable [DecidableEq η] [DecidableEq ι] {E : Example P η} {M : UdpMachine (platform P) ι}
  {f : η ↪ ι} {tr : List ((Config (platform P) η ι M × Process P η ι) × Label (platform P) η ι)}
  {x : Config (platform P) η ι M × Process P η ι}

def accepted (tr : List ((Config (platform P) η ι M × Process P η ι) × Label (platform P) η ι)) :
    List UInt8 := tr.flatMap fun e => acceptedAt e.1.2 e.2

theorem run_streaming (hrun : Run (Joint E M) (initial M f,Process.initial) tr x)
    (hfree : ∀ e ∈ tr, Undisturbed e.1.2 e.2) (hfrugal : ∀ e ∈ tr, Frugal e.1.2 e.2) :
    Streaming E x.2 ∧ accepted tr = stream x.2.currentTxBytes.toNat := by
  induction hrun with
  | nil => exact ⟨⟨UInt32.le_iff_toNat_le.mpr (Nat.zero_le _),fun _ h => (by cases h),.nil,
      fun _ h => (by cases h)⟩,rfl⟩
  | @snoc tr t u l run last ih =>
    obtain ⟨hstreaming,haccepted⟩ := ih (fun e he => hfree e (List.mem_append_left _ he))
      (fun e he => hfrugal e (List.mem_append_left _ he))
    obtain ⟨hstep,hbytes⟩ := streaming_step hstreaming (hfree (t,l) (by simp))
      (hfrugal (t,l) (by simp)) last.2
    refine ⟨hstep,?_⟩
    rw [hbytes,← haccepted,accepted,List.flatMap_append,List.flatMap_singleton]
    rfl

omit [DecidableEq η] [DecidableEq ι] in
/-- The sender closes its socket when nothing is left. -/
theorem close_done {p p' : Process P η ι} {seen : Seen (platform P) η ι} (h : Streaming E p)
    (hstep : ProcessStep E p (.call (.helix E.localSocket) .close,seen) p') :
    p.currentTxBytes = totalTxBytes := by
  generalize hl : ((.call (.helix E.localSocket) .close,seen) : Label (platform P) η ι) = l at hstep
  cases hstep with
  | begin e scheduled idle =>
    obtain ⟨hs,ho⟩ := Action.call.inj (Prod.mk.inj hl).1
    have hstream := start_onStream (E := E) (ι := ι) p.currentTxBytes e
    rw [location_closes hs ho] at hstream
    exact hstream rfl
  | call callback k rest hp =>
    obtain ⟨hs,ho⟩ := Action.call.inj (Prod.mk.inj hl).1
    have hstream := (everywhere_rest h.onStream hp).1 k rfl
    rw [location_closes hs ho] at hstream
    exact hstream rfl
  | returned | invoked | callbackReturn | udp => cases hl

/-- While the sender is not entered between taking an offset and adding to its
counter, the bytes accepted are the endless alphabet up to the counter. It never
exceeds the total, and the socket is closed only when all of it is accepted. -/
theorem stream_exact (hrun : Run (Joint E M) (initial M f,Process.initial) tr x)
    (hfree : ∀ e ∈ tr, Undisturbed e.1.2 e.2) (hfrugal : ∀ e ∈ tr, Frugal e.1.2 e.2) :
    accepted tr = stream x.2.currentTxBytes.toNat ∧ x.2.currentTxBytes ≤ totalTxBytes ∧
    ∀ pre y seen post, tr = pre ++ (y,(.call (.helix E.localSocket) .close,seen)) :: post →
      accepted pre = stream totalTxBytes.toNat := by
  obtain ⟨hstreaming,haccepted⟩ := run_streaming hrun hfree hfrugal
  refine ⟨haccepted,hstreaming.bound,?_⟩
  rintro pre y seen post rfl
  obtain ⟨hpre,y',hstep,_⟩ := run_at pre post hrun
  obtain ⟨hbefore,hbytes⟩ := run_streaming hpre (fun e he => hfree e (List.mem_append_left _ he))
    (fun e he => hfrugal e (List.mem_append_left _ he))
  rw [hbytes,close_done hbefore hstep.2]

omit [DecidableEq η] [DecidableEq ι] in
theorem obliging_undisturbed {p : Process P η ι} {l : Label (platform P) η ι}
    (h : Obliging Accepting p l) : Undisturbed p l := fun _ _ hl => absurd hl (h.quiet _ _ _)

omit [DecidableEq η] [DecidableEq ι] in
theorem obliging_frugal {p : Process P η ι} {l : Label (platform P) η ι}
    (h : Obliging Accepting p l) : Frugal p l := by
  intro callback s dataOffset toWrite rest r amountSent hp hl _
  obtain rfl : amountSent = toWrite.toInt32 := by
    cases h.accepts _ _ _ _ _ hp hl
    rfl
  exact UInt32.le_refl _

/-- The whole stream is sent. -/
theorem transfer_sent : ∃ tr x,
    Run (Joint unitExample arbitrary) (initial arbitrary (.refl Bool),Process.initial) tr x ∧
    accepted tr = stream totalTxBytes.toNat := by
  obtain ⟨tr,c,hrun,hall,_⟩ := transfer_runs unitExample (.refl Bool)
  exact ⟨tr,_,hrun,(stream_exact hrun (fun e he => obliging_undisturbed (hall e he))
    (fun e he => obliging_frugal (hall e he))).1⟩

end Runs

end Ns3Helix.TransferStream
