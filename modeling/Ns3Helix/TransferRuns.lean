import Mathlib.Data.UInt
import Ns3Helix.LargeTransfer

/-!
# A transfer that goes through

Over a UDP layer that answers every call at once and accepts all that `Send`
is given, the example reaches the end of its stream and closes its socket.
-/

set_option autoImplicit false

namespace Ns3Helix.TransferRuns
open Ns3Helix.SocketInterface Ns3Helix.SocketImpl Ns3Helix.SocketMachine
open Ns3Helix.SocketHistory Ns3Helix.LargeTransfer Ns3Helix.TransitionSystem

def unitExample : Example .unit Bool where
  localSocket := true
  remoteSocket := false
  distinct := by decide
  servAddress := ()
  createPacket _ := ()

section Answers

variable {P : Platform} {η ι : Type} [DecidableEq η] [DecidableEq ι] {f : η ↪ ι}

def Resting (f : η ↪ ι) (c : Config P η ι arbitrary) : Prop :=
  c.stack = [] ∧ ∃ ls, Tracks f ls c

omit [DecidableEq ι] in
theorem resting_initial : Resting f (initial (arbitrary : UdpMachine P ι) f) :=
  ⟨rfl,[],tracks_initial _ f⟩

theorem exec_return {M : UdpMachine P ι} {c : Config P η ι M} {u : ι} {g : η} {t t' : Ty}
    {k : t.denote P → SocketM P η ι (t'.denote P)} (hk : Echoes t t' k)
    (hstack : c.stack = [.udp u t (some ⟨g,t',k⟩)]) (v : t.denote P) :
    ∃ c', c'.stack = [] ∧ c.exec (.udp (.return ⟨t,v⟩)) = some (c',.returned (.helix g) ⟨t,v⟩) := by
  obtain ⟨out,hrun⟩ := (c.unwind []).run_echo g hk v
  refine ⟨{ c.unwind [] with printed := out },rfl,?_⟩
  simp only [Config.exec,hstack,dif_pos,Config.handOver,hrun,Config.giveBack]
  rfl

theorem entered {c : Config P η ι arbitrary} (h : Resting f c) (g : η)
    (o : Op P (fun _ => P.AppCallback)) :
    ∃ c' k, Step arbitrary c (.call (.helix g) o,.nothing) c' ∧ Echoes (forwarded g o).ty o.ty k ∧
      c'.stack = [.udp (f g) (forwarded g o).ty (some ⟨g,o.ty,k⟩)] ∧ ∃ ls, Tracks f ls c' := by
  obtain ⟨hstack,ls,htracks⟩ := h
  obtain ⟨out,k,hcall,hk⟩ := c.call_helix g o (f g) (htracks.owner g)
  have hruns : c.appRuns = true := by rw [Config.appRuns,hstack]
  have hexec : c.exec (.call (.helix g) o) = some (_,.nothing) :=
    (if_pos hruns).trans (congrArg some hcall)
  have hcalled : Step arbitrary c (.call (.helix g) o,.nothing) _ := ⟨trivial,(),rfl,hexec⟩
  exact ⟨_,k,hcalled,hk,congrArg (_ :: ·) hstack,_,tracks_step htracks hcalled⟩

theorem answered {c : Config P η ι arbitrary} (h : Resting f c) (g : η)
    (o : Op P (fun _ => P.AppCallback)) (v : o.ty.denote P) :
    ∃ c' c'', Step arbitrary c (.call (.helix g) o,.nothing) c' ∧
      Step arbitrary c' (.udp (.return ⟨_,v⟩),.returned (.helix g) ⟨_,v⟩) c'' ∧ Resting f c'' := by
  obtain ⟨c',k,hcalled,hk,hstack,ls,htracks⟩ := entered h g o
  have same : ∀ t, t = o.ty → ∃ v' : t.denote P, (⟨t,v'⟩ : Val P) = ⟨o.ty,v⟩ := by
    rintro _ rfl
    exact ⟨v,rfl⟩
  obtain ⟨v',hv⟩ := same (forwarded g o).ty (map_ty _ _ o)
  obtain ⟨c'',hend,hreturn⟩ := exec_return hk hstack v'
  rw [hv] at hreturn
  have hanswered : Step arbitrary c' (.udp (.return ⟨o.ty,v⟩),.returned (.helix g) ⟨o.ty,v⟩) c'' :=
    ⟨trivial,(),trivial,hreturn⟩
  exact ⟨c',c'',hcalled,hanswered,hend,_,tracks_step htracks hanswered⟩

end Answers

section Counting

theorem toNat_left {currentTxBytes : UInt32} (h : currentTxBytes ≤ totalTxBytes) :
    (totalTxBytes - currentTxBytes).toNat = totalTxBytes.toNat - currentTxBytes.toNat :=
  UInt32.toNat_sub_of_le _ _ h

theorem add_le_total {currentTxBytes toWrite amountSent : UInt32}
    (hbound : currentTxBytes ≤ totalTxBytes) (hleft : toWrite ≤ totalTxBytes - currentTxBytes)
    (hsent : amountSent ≤ toWrite) : currentTxBytes + amountSent ≤ totalTxBytes ∧
      (currentTxBytes + amountSent).toNat = currentTxBytes.toNat + amountSent.toNat := by
  rw [UInt32.le_iff_toNat_le] at hbound hleft hsent
  rw [toNat_left (UInt32.le_iff_toNat_le.mpr hbound)] at hleft
  have htotal : totalTxBytes.toNat < UInt32.size := by decide
  have hsum : (currentTxBytes + amountSent).toNat = currentTxBytes.toNat + amountSent.toNat := by
    rw [UInt32.toNat_add]
    apply Nat.mod_eq_of_lt
    show currentTxBytes.toNat + amountSent.toNat < UInt32.size
    omega
  refine ⟨?_,hsum⟩
  rw [UInt32.le_iff_toNat_le,hsum]
  omega

theorem dataOffset_lt (currentTxBytes : UInt32) :
    (currentTxBytes % writeSize).toNat < writeSize.toNat := by
  rw [UInt32.toNat_mod]
  exact Nat.mod_lt _ (by decide)

def portion (currentTxBytes : UInt32) : UInt32 :=
  min (min (writeSize - currentTxBytes % writeSize) (totalTxBytes - currentTxBytes)) writeSize

theorem portion_bounds {currentTxBytes : UInt32} (h : currentTxBytes < totalTxBytes) :
    0 < (portion currentTxBytes).toNat ∧ portion currentTxBytes ≤ totalTxBytes - currentTxBytes ∧
      (portion currentTxBytes).toNat ≤ writeSize.toNat := by
  have hlt := UInt32.lt_iff_toNat_lt.mp h
  have hleft := toNat_left (UInt32.le_of_lt h)
  have hoffset := dataOffset_lt currentTxBytes
  have hrest := UInt32.toNat_sub_of_le writeSize (currentTxBytes % writeSize)
    (UInt32.le_iff_toNat_le.mpr (Nat.le_of_lt hoffset))
  rw [UInt32.le_iff_toNat_le,portion,UInt32.toNat_min,UInt32.toNat_min,hleft,hrest]
  have hsize : 0 < writeSize.toNat := by decide
  omega

theorem toInt32_nonneg {n : UInt32} (h : n.toNat ≤ writeSize.toNat) : ¬ n.toInt32 < 0 := by
  have hlt : n.toNat < 2^31 := Nat.lt_of_le_of_lt h (by decide)
  rw [Int32.lt_iff_toInt_lt,← UInt32.ofNat_toNat (x := n),UInt32.toInt32_ofNat',
    Int32.toInt_ofNat_of_lt hlt,Int32.toInt_zero]
  omega

end Counting

section Exchange

variable {P : Platform} {η ι : Type} [DecidableEq η] [DecidableEq ι] {f : η ↪ ι}
  {E : Example P η} {c : Config (platform P) η ι arbitrary} {p q : Process P η ι}

def Accepting : Location P η ι → Val (platform P) → Prop
  | .condition _, v => ∃ txAvailable : UInt32, 0 < txAvailable ∧ v = ⟨.uint32,txAvailable⟩
  | .sending _ _ toWrite, v => v = ⟨.int,toWrite.toInt32⟩
  | _, _ => True

def IsSending : Location P η ι → Prop
  | .sending _ _ _ => True
  | _ => False

structure Obliging (A : Location P η ι → Val (platform P) → Prop) (p : Process P η ι)
    (l : Label (platform P) η ι) : Prop where
  quiet : ∀ cb s e, l.2 ≠ .invoked cb s e
  accepts : ∀ callback k rest r v, p.functions = ⟨callback,.waiting k⟩ :: rest →
    l.2 = .returned r v → A k v

variable {A : Location P η ι → Val (platform P) → Prop}

theorem exchange (hc : Resting f c) {k : Location P η ι} {g : η} (hk : k.socket E = .helix g)
    (hcall : ProcessStep E p (.call (k.socket E) (k.op E),.nothing) q)
    (hq : q.functions = [⟨none,.waiting k⟩]) (v : (k.op E).ty.denote (platform P))
    (hv : A k ⟨_,v⟩) :
    ∃ tr c', Run (Joint E arbitrary) (c,p) tr
        (c',q.proceed none [] (resume E q.currentTxBytes k v)) ∧
      (∀ e ∈ tr, Obliging A e.1.2 e.2) ∧ Resting f c' := by
  obtain ⟨c',c'',hcalled,hanswered,hrest⟩ := answered hc g (k.op E) v
  rw [← hk] at hcalled hanswered
  have hrun : Run (Joint E arbitrary) (c,p) _ (c',q) := run_single ⟨hcalled,hcall⟩
  refine ⟨_,c'',.snoc hrun ⟨hanswered,.returned none k [] hq v⟩,?_,hrest⟩
  intro e he
  rcases List.mem_append.mp he with he | he
  · obtain rfl := List.mem_singleton.mp he
    exact ⟨fun _ _ _ h => (by cases h),fun _ _ _ _ _ _ h => (by cases h)⟩
  · obtain rfl := List.mem_singleton.mp he
    refine ⟨fun _ _ _ h => (by cases h),fun callback k' rest r v' hp h => ?_⟩
    rw [hq] at hp
    cases hp
    cases h
    exact hv

def Leads (A : Location P η ι → Val (platform P) → Prop) (E : Example P η) (f : η ↪ ι)
    (p p' : Process P η ι) : Prop :=
  ∀ c : Config (platform P) η ι arbitrary, Resting f c → ∃ tr c',
    Run (Joint E arbitrary) (c,p) tr (c',p') ∧ (∀ e ∈ tr, Obliging A e.1.2 e.2) ∧ Resting f c'

theorem leads_trans {p₁ p₂ p₃ : Process P η ι} (h : Leads A E f p₁ p₂) (h' : Leads A E f p₂ p₃) :
    Leads A E f p₁ p₃ := by
  intro c hc
  obtain ⟨tr,c',hrun,hall,hc'⟩ := h c hc
  obtain ⟨tr',c'',hrun',hall',hc''⟩ := h' c' hc'
  refine ⟨tr++tr',c'',run_append hrun hrun',fun e he => ?_,hc''⟩
  rcases List.mem_append.mp he with he | he
  · exact hall e he
  · exact hall' e he

def alone (currentTxBytes : UInt32) (scheduled : List SimulatorEvent) (k : Location P η ι) :
    Process P η ι := ⟨currentTxBytes,[⟨none,.calling k⟩],scheduled⟩

variable {currentTxBytes : UInt32} {scheduled : List SimulatorEvent}

theorem leads_call (k : Location P η ι) {g : η} (hk : k.socket E = .helix g)
    (v : (k.op E).ty.denote (platform P)) (hv : A k ⟨_,v⟩) {p' : Process P η ι}
    (hresume : Process.proceed ⟨currentTxBytes,[⟨none,.waiting k⟩],scheduled⟩ none []
      (resume E currentTxBytes k v) = p') :
    Leads A E f (alone currentTxBytes scheduled k) p' := by
  intro c hc
  have hcall : ProcessStep E (alone currentTxBytes scheduled k)
      (.call (k.socket E) (k.op E),.nothing) _ := .call none k [] rfl
  rw [← hresume]
  exact exchange hc hk hcall rfl v hv

section Starting

variable (hA : ∀ k v, ¬ IsSending k → Accepting k v → A k v)
include hA

theorem leads_sending :
    Leads A E f (alone currentTxBytes scheduled (.condition (.helix E.localSocket)))
      (alone currentTxBytes scheduled
        (.sending (.helix E.localSocket) (currentTxBytes % writeSize)
          (portion currentTxBytes))) := by
  refine leads_trans (leads_call (.condition _) rfl writeSize
    (hA (.condition _) _ id ⟨writeSize,by decide,rfl⟩) rfl) ?_
  exact leads_call (.room _ _ _) rfl writeSize (hA (.room _ _ _) _ id trivial) rfl

theorem leads_main : Leads A E f (.initial : Process P η ι) ⟨0,[],[.startFlow,.closeSocket]⟩ := by
  have hbind : Leads A E f .initial (alone 0 [.startFlow,.closeSocket] .listenRemote) := by
    intro c hc
    exact exchange hc rfl (.begin .main (List.mem_singleton_self _) rfl) rfl (0 : Int32)
      (hA .bindRemote _ id trivial)
  refine leads_trans hbind ?_
  refine leads_trans (leads_call .listenRemote rfl (0 : Int32)
    (hA .listenRemote _ id trivial) rfl) ?_
  refine leads_trans (leads_call .hookRemote rfl () (hA .hookRemote _ id trivial) rfl) ?_
  exact leads_call .bindLocal rfl (0 : Int32) (hA .bindLocal _ id trivial) rfl

theorem leads_startFlow : Leads A E f (.initial : Process P η ι)
    (alone 0 [.closeSocket] (.condition (.helix E.localSocket))) := by
  have hconnect : Leads A E f ⟨0,[],[.startFlow,.closeSocket]⟩
      (alone 0 [.closeSocket] .hookLocal) := by
    intro c hc
    exact exchange hc rfl (.begin .startFlow List.mem_cons_self rfl) rfl (0 : Int32)
      (hA .connect _ id trivial)
  refine leads_trans (leads_main hA) (leads_trans hconnect ?_)
  refine leads_trans (leads_call .hookLocal rfl () (hA .hookLocal _ id trivial) rfl) ?_
  exact leads_call .txSpace rfl (0 : UInt32) (hA .txSpace _ id trivial) rfl

end Starting

theorem leads_round (h : currentTxBytes < totalTxBytes) {k : Location P η ι}
    (hnext : LargeTransfer.writeUntilBufferFull (currentTxBytes + portion currentTxBytes)
      (.helix E.localSocket) = some k) :
    Leads Accepting E f (alone currentTxBytes scheduled (.condition (.helix E.localSocket)))
      (alone (currentTxBytes + portion currentTxBytes) scheduled k) := by
  have hnonneg := toInt32_nonneg (portion_bounds h).2.2
  refine leads_trans (leads_sending fun _ _ _ hv => hv) ?_
  refine leads_call (.sending _ _ _) rfl (portion currentTxBytes).toInt32 rfl ?_
  simp only [resume,if_neg hnonneg,UInt32.toUInt32_toInt32,hnext]
  rfl

/-- The loop runs until everything is sent. -/
theorem leads_loop (n : ℕ) (hn : totalTxBytes.toNat - currentTxBytes.toNat = n)
    (h : currentTxBytes < totalTxBytes) :
    Leads Accepting E f (alone currentTxBytes scheduled (.condition (.helix E.localSocket)))
      (alone totalTxBytes scheduled (.close (.helix E.localSocket))) := by
  induction n using Nat.strong_induction_on generalizing currentTxBytes with
  | _ n ih =>
    obtain ⟨hpos,hleft,_⟩ := portion_bounds h
    obtain ⟨hbound,hsum⟩ := add_le_total (UInt32.le_of_lt h) hleft (UInt32.le_refl _)
    have hlt := UInt32.lt_iff_toNat_lt.mp h
    by_cases hmore : currentTxBytes + portion currentTxBytes < totalTxBytes
    · refine leads_trans (leads_round h (if_pos hmore)) (ih _ ?_ rfl hmore)
      rw [hsum]
      omega
    · have hfull : currentTxBytes + portion currentTxBytes = totalTxBytes :=
        UInt32.le_antisymm hbound (UInt32.not_lt.mp hmore)
      have hnext : LargeTransfer.writeUntilBufferFull (currentTxBytes + portion currentTxBytes)
          (.helix E.localSocket) = some (.close (.helix E.localSocket) : Location P η ι) :=
        (if_neg hmore).trans (if_pos (UInt32.not_lt.mp hmore))
      have hround : Leads Accepting E f (alone currentTxBytes scheduled _) _ := leads_round h hnext
      rwa [hfull] at hround

/-- Everything is sent and the socket is about to be closed. -/
theorem transfer_runs (E : Example P η) (f : η ↪ ι) : ∃ tr c,
    Run (Joint E arbitrary) (initial arbitrary f,Process.initial) tr
      (c,alone totalTxBytes [.closeSocket] (.close (.helix E.localSocket))) ∧
    (∀ e ∈ tr, Obliging Accepting e.1.2 e.2) ∧ Resting f c :=
  leads_trans (leads_startFlow fun _ _ _ hv => hv) (leads_loop _ rfl (by decide)) _ resting_initial

/-- The first `Send` is about to be called, and none has returned. -/
theorem first_send_runs (E : Example P η) (f : η ↪ ι) : ∃ tr c,
    Run (Joint E arbitrary) (initial arbitrary f,Process.initial) tr
      (c,alone 0 [.closeSocket] (.sending (.helix E.localSocket) 0 (portion 0))) ∧
    (∀ e ∈ tr, Obliging (fun k v => ¬ IsSending k ∧ Accepting k v) e.1.2 e.2) ∧ Resting f c := by
  have pending (k : Location P η ι) (v : Val (platform P)) (hk : ¬ IsSending k)
      (hv : Accepting k v) : ¬ IsSending k ∧ Accepting k v := ⟨hk,hv⟩
  exact leads_trans (leads_startFlow pending) (leads_sending pending) _ resting_initial

end Exchange

end Ns3Helix.TransferRuns
