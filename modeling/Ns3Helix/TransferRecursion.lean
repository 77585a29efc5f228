import Ns3Helix.TransferProgress

/-!
# A sender that is entered from within its own `Send`

The counter is read before `Send` and moved only after it. A UDP socket that
announces room for more before `Send` returns therefore enters the sender with
the counter where it was, and the sender sends again. With room at every test
of the loop this never ends: no `Send` returns and nothing is counted.
-/

set_option autoImplicit false

namespace Ns3Helix.TransferRecursion
open Ns3Helix.SocketInterface Ns3Helix.SocketImpl Ns3Helix.SocketMachine
open Ns3Helix.SocketHistory Ns3Helix.LargeTransfer Ns3Helix.TransferCalls
open Ns3Helix.TransferProgress Ns3Helix.TransferRuns Ns3Helix.TransitionSystem

variable {P : Platform} {η ι : Type}

section Layer

def WaitsAt (p : Process P η ι) (k : Location P η ι) : Prop :=
  ∃ callback rest, p.functions = ⟨callback,.waiting k⟩ :: rest

def SendReturns (p : Process P η ι) (l : Label (platform P) η ι) : Prop :=
  (∃ s dataOffset toWrite, WaitsAt p (.sending s dataOffset toWrite)) ∧
    ∃ r v, l.2 = .returned r v

def Roomy (p : Process P η ι) (l : Label (platform P) η ι) : Prop :=
  ∀ s r (txAvailable : UInt32), WaitsAt p (.condition s) →
    l.2 = .returned r ⟨.uint32,txAvailable⟩ → 0 < txAvailable

def Announces (E : Example P η) (f : η ↪ ι) (l : Label (platform P) η ι) : Prop :=
  ∃ n, l.1 = .udp (.raise (f E.localSocket) (.send n))

def entersSender (l : Label (platform P) η ι) : Bool :=
  match l.2 with
  | .invoked .writeUntilBufferFull _ _ => true
  | _ => false

def isWriter (x : Function P η ι) : Bool := x.callback = some .writeUntilBufferFull

def writers (p : Process P η ι) : ℕ := p.functions.countP isWriter

end Layer

section Locations

variable {E : Example P η}

def InLoop : Location P η ι → Prop
  | .condition _ => True
  | .room _ _ _ => True
  | .sending _ _ _ => True
  | _ => False

def AfterHook : Location P η ι → Prop
  | .txSpace => True
  | .condition _ => True
  | .room _ _ _ => True
  | .sending _ _ _ => True
  | _ => False

def AtStart (E : Example P η) : Location P η ι → Prop
  | .room _ dataOffset _ => dataOffset = 0
  | .sending _ dataOffset _ => dataOffset = 0
  | .close s => s ≠ .helix E.localSocket
  | .unhookRecv s => s ≠ .helix E.localSocket
  | .unhookSend s => s ≠ .helix E.localSocket
  | _ => True

theorem write_zero (s : SocketRef η ι) :
    LargeTransfer.writeUntilBufferFull (P := P) 0 s = some (.condition s) := if_pos (by decide)

theorem resume_loops {k : Location P η ι} (hsend : ∀ s dataOffset toWrite,
      k ≠ .sending s dataOffset toWrite)
    {v : (k.op E).ty.denote (platform P)}
    (hroom : ∀ s (txAvailable : UInt32), k = .condition s →
      (⟨_,v⟩ : Val (platform P)) = ⟨.uint32,txAvailable⟩ → 0 < txAvailable)
    (hstart : AtStart E k) : (resume E 0 k v).1 = 0 ∧
      (InLoop k → ∃ k', (resume E 0 k v).2 = some k' ∧ InLoop k') ∧
      ∀ k', (resume E 0 k v).2 = some k' →
        AtStart E k' ∧ (AfterHook k' → k = .hookLocal ∨ AfterHook k) := by
  cases k with
  | bindRemote | listenRemote | hookRemote | connect =>
    refine ⟨rfl,fun h => h.elim,fun k' hk' => ?_⟩
    obtain rfl := Option.some.inj hk'
    exact ⟨trivial,fun h => h.elim⟩
  | hookLocal =>
    refine ⟨rfl,fun h => h.elim,fun k' hk' => ?_⟩
    obtain rfl := Option.some.inj hk'
    exact ⟨trivial,fun _ => .inl rfl⟩
  | bindLocal | unhookSend => exact ⟨rfl,fun h => h.elim,fun k' hk' => (by cases hk')⟩
  | close | unhookRecv =>
    refine ⟨rfl,fun h => h.elim,fun k' hk' => ?_⟩
    obtain rfl := Option.some.inj hk'
    exact ⟨hstart,fun h => h.elim⟩
  | txSpace =>
    refine ⟨rfl,fun h => h.elim,fun k' hk' => ?_⟩
    obtain rfl := Option.some.inj ((write_zero _).symm.trans hk')
    exact ⟨trivial,fun _ => .inr trivial⟩
  | condition s =>
    have hpos : @GT.gt UInt32 _ v 0 := hroom s v rfl rfl
    simp only [resume,if_pos hpos]
    refine ⟨trivial,fun _ => ⟨_,rfl,trivial⟩,fun k' hk' => ?_⟩
    obtain rfl := Option.some.inj hk'
    exact ⟨rfl,fun _ => .inr trivial⟩
  | room s dataOffset toWrite =>
    refine ⟨rfl,fun _ => ⟨_,rfl,trivial⟩,fun k' hk' => ?_⟩
    obtain rfl := Option.some.inj hk'
    exact ⟨hstart,fun _ => .inr trivial⟩
  | sending s dataOffset toWrite => exact absurd rfl (hsend s dataOffset toWrite)
  | recvFrom s fromAddress =>
    obtain ⟨packet,address⟩ := v
    cases packet with
    | none => exact ⟨rfl,fun h => h.elim,fun k' hk' => (by cases hk')⟩
    | some packet =>
      refine ⟨rfl,fun h => h.elim,fun k' hk' => ?_⟩
      obtain rfl := Option.some.inj hk'
      exact ⟨trivial,fun h => h.elim⟩

end Locations

section Trap

variable [DecidableEq η] [DecidableEq ι] {E : Example P η} {M : UdpMachine (platform P) ι}
  {f : η ↪ ι} {ls ls' : List (Label (platform P) η ι)} {c c' : Config (platform P) η ι M}
  {p p' : Process P η ι} {l : Label (platform P) η ι}

def Registered (E : Example P η) (ls : List (Label (platform P) η ι)) : Prop :=
  (history E.localSocket ls).send = some (some .writeUntilBufferFull)

def PastHook (x : Function P η ι) : Prop :=
  x.phase = .waiting .hookLocal ∨ ∃ k, Phase.location x.phase = some k ∧ AfterHook k

structure Held (E : Example P η) (ls : List (Label (platform P) η ι)) (x : Function P η ι) :
    Prop where
  atStart : ∀ k, Phase.location x.phase = some k → AtStart E k
  loops : x.callback = some .writeUntilBufferFull →
    ∃ k, Phase.location x.phase = some k ∧ InLoop k
  hooked : PastHook x → Registered E ls

structure Trapped (E : Example P η) (f : η ↪ ι) (ls : List (Label (platform P) η ι))
    (c : Config (platform P) η ι M) (p : Process P η ι) : Prop where
  kept : Kept E f ls c p
  uncounted : p.currentTxBytes = 0
  held : ∀ x ∈ p.functions, Held E ls x

omit [DecidableEq ι] in
theorem registered_snoc (h : Registered E ls) {a : Action (platform P) η ι}
    {seen : Seen (platform P) η ι}
    (hcall : ∀ cb, a = .call (.helix E.localSocket) (.setSendCallback cb) →
      cb = some .writeUntilBufferFull)
    (hinherited : ∀ s i, a ≠ .inherited s i) : Registered E (ls++[(a,seen)]) := by
  rw [Registered,history_snoc]
  cases a with
  | call s o =>
    cases s with
    | udp u => exact h
    | helix g =>
      rw [History.record]
      split
      next hg =>
        cases o with
        | setSendCallback cb =>
          subst hg
          exact congrArg some (hcall cb rfl)
        | _ => exact h
      next => exact h
  | inherited s i => exact absurd rfl (hinherited s i)
  | callbackReturn | udp => exact h

omit [DecidableEq η] [DecidableEq ι] in
theorem start_atStart (e : SimulatorEvent) : AtStart E (e.start E : Location P η ι) := by
  cases e with
  | closeSocket => exact fun hs => absurd (SocketRef.helix.inj hs).symm E.distinct
  | main | startFlow => trivial

omit [DecidableEq ι] in
theorem process_registers (h : ∀ x ∈ p.functions, Held E ls x) (hstep : ProcessStep E p l p') :
    (∀ cb, l.1 = .call (.helix E.localSocket) (.setSendCallback cb) →
      cb = some .writeUntilBufferFull) ∧ ∀ s i, l.1 ≠ .inherited s i := by
  have location (k : Location P η ι) (hk : AtStart E k) (cb : Option Callback)
      (ha : (.call (k.socket E) (k.op E) : Action (platform P) η ι) =
        .call (.helix E.localSocket) (.setSendCallback cb)) : cb = some .writeUntilBufferFull := by
    obtain ⟨hs,ho⟩ := Action.call.inj ha
    cases k with
    | hookLocal =>
      cases ho
      rfl
    | unhookSend s => exact absurd hs hk
    | _ => cases ho
  cases hstep with
  | begin e scheduled idle =>
    exact ⟨location _ (start_atStart e),fun _ _ h => (by cases h)⟩
  | call callback k rest hp =>
    have hheld := h ⟨callback,.calling k⟩ (by simp [hp])
    exact ⟨location k (hheld.atStart k rfl),fun _ _ h => (by cases h)⟩
  | returned | invoked | callbackReturn | udp =>
    exact ⟨fun _ h => (by cases h),fun _ _ h => (by cases h)⟩

omit [DecidableEq η] [DecidableEq ι] in
theorem writers_same {q : Process P η ι} {x y : Function P η ι} {rest : List (Function P η ι)}
    (hp : p.functions = x :: rest) (hq : q.functions = y :: rest) (hxy : y.callback = x.callback) :
    writers q = writers p := by
  rw [writers,writers,hp,hq,List.countP_cons,List.countP_cons,isWriter,isWriter,hxy]

omit [DecidableEq ι] in
theorem held_cons {q : Process P η ι} {x : Function P η ι} {rest : List (Function P η ι)}
    (hq : q.functions = x :: rest) (hx : Held E ls x) (hrest : ∀ y ∈ rest, Held E ls y) :
    ∀ y ∈ q.functions, Held E ls y := by
  intro y hy
  rw [hq] at hy
  rcases List.mem_cons.mp hy with rfl | hy
  · exact hx
  · exact hrest y hy

omit [DecidableEq ι] in
theorem held_proceed {callback : Option Callback} {k : Location P η ι}
    {rest : List (Function P η ι)} {ls' : List (Label (platform P) η ι)}
    (hp : p.functions = ⟨callback,.waiting k⟩ :: rest)
    (hx : Held E ls ⟨callback,.waiting k⟩) (hlater : Registered E ls → Registered E ls')
    (hrest : ∀ y ∈ rest, Held E ls' y) {r : UInt32 × Option (Location P η ι)}
    (hloop : InLoop k → ∃ k', r.2 = some k' ∧ InLoop k')
    (hnext : ∀ k', r.2 = some k' →
      AtStart E k' ∧ (AfterHook k' → k = .hookLocal ∨ AfterHook k)) :
    (∀ y ∈ (p.proceed callback rest r).functions, Held E ls' y) ∧
      writers (p.proceed callback rest r) = writers p := by
  have hin (h : callback = some .writeUntilBufferFull) : InLoop k := by
    obtain ⟨k',hk',hloop⟩ := hx.loops h
    obtain rfl := Option.some.inj hk'
    exact hloop
  obtain ⟨cur,next⟩ := r
  cases next with
  | some k' =>
    obtain ⟨hstart,hpast⟩ := hnext k' rfl
    refine ⟨held_cons rfl ⟨fun k'' hk'' => ?_,fun h => ?_,fun h => hlater (hx.hooked ?_)⟩ hrest,
      writers_same hp rfl rfl⟩
    · obtain rfl := Option.some.inj hk''
      exact hstart
    · exact hloop (hin h)
    · rcases h with h | ⟨k'',hk'',hafter⟩
      · cases h
      · obtain rfl := Option.some.inj hk''
        rcases hpast hafter with rfl | hafter
        · exact .inl rfl
        · exact .inr ⟨k,rfl,hafter⟩
  | none =>
    -- the sender does not get here
    have hend (h : callback = some .writeUntilBufferFull) : False := by
      obtain ⟨k',hk',_⟩ := hloop (hin h)
      cases hk'
    cases callback with
    | none =>
      refine ⟨hrest,?_⟩
      rw [writers,writers,hp,List.countP_cons]
      rfl
    | some cb =>
      refine ⟨held_cons rfl ⟨fun k' hk' => (by cases hk'),fun h => (hend h).elim,fun h => ?_⟩ hrest,
        writers_same hp rfl rfl⟩
      rcases h with h | ⟨k',hk',_⟩
      · cases h
      · cases hk'

omit [DecidableEq ι] in
theorem held_later {ls' : List (Label (platform P) η ι)} {x : Function P η ι} (h : Held E ls x)
    (hlater : Registered E ls → Registered E ls') : Held E ls' x :=
  ⟨h.atStart,h.loops,fun hpast => hlater (h.hooked hpast)⟩

omit [DecidableEq ι] in
theorem held_called {callback : Option Callback} {k : Location P η ι}
    (hx : Held E ls ⟨callback,.calling k⟩)
    (hlater : Registered E ls → Registered E (ls++[(.call (k.socket E) (k.op E),.nothing)])) :
    Held E (ls++[(.call (k.socket E) (k.op E),.nothing)]) ⟨callback,.waiting k⟩ := by
  refine ⟨hx.atStart,hx.loops,fun hpast => ?_⟩
  rcases hpast with h | ⟨k',hk',hafter⟩
  · obtain rfl := FunctionStack.Phase.waiting.inj h
    rw [Registered,history_snoc]
    simp only [History.record,Location.socket,if_pos]
    rfl
  · exact hlater (hx.hooked (.inr ⟨k',hk',hafter⟩))

/-- The sender is invoked where it is registered. -/
theorem held_invoked (h : Trapped E f ls c p) (hlater : Registered E ls → Registered E ls') {u : ι}
    {e e' : Event} {cb : Callback} {s : SocketRef η ι}
    (hseen : (c.raise u e).2 = .invoked cb s e') :
    (∀ x ∈ (p.invoke s cb).functions, Held E ls' x) ∧ (p.invoke s cb).currentTxBytes = 0 ∧
      writers (p.invoke s cb) =
        writers p + if entersSender ((.udp (.raise u e),.invoked cb s e') : Label (platform P) η ι)
          then 1 else 0 := by
  have hrest : ∀ x ∈ p.functions, Held E ls' x := fun x hx => held_later (h.held x hx) hlater
  cases cb with
  | handleRead =>
    refine ⟨held_cons rfl ⟨fun k hk => ?_,fun hcb => (by cases hcb),fun hpast => ?_⟩ hrest,
      h.uncounted,List.countP_cons_of_neg (by simp [isWriter])⟩
    · obtain rfl := Option.some.inj hk
      trivial
    · rcases hpast with hpast | ⟨k,hk,hafter⟩
      · cases hpast
      · obtain rfl := Option.some.inj hk
        exact hafter.elim
  | writeUntilBufferFull =>
    obtain ⟨hs,n,rfl⟩ := invoked_proper h.kept hseen
    obtain ⟨g,-,rfl,rfl,hr⟩ := invoked_registered h.kept hseen
    obtain rfl := SocketRef.helix.inj hs
    have hinvoke : (p.invoke (.helix E.localSocket) .writeUntilBufferFull).functions =
        ⟨some .writeUntilBufferFull,.calling (.condition (.helix E.localSocket))⟩ ::
          p.functions := by
      rw [Process.invoke,h.uncounted,Callback.start,write_zero]
      rfl
    refine ⟨held_cons hinvoke ⟨fun k hk => ?_,fun _ => ⟨_,rfl,trivial⟩,fun _ => hlater hr⟩ hrest,
      h.uncounted,?_⟩
    · obtain rfl := Option.some.inj hk
      trivial
    · rw [writers,hinvoke,List.countP_cons]
      rfl

/-- No step lets a `Send` return or a callback of the sender come to its end. -/
theorem trapped_step (h : Trapped E f ls c p) (hsend : ¬ SendReturns p l) (hroomy : Roomy p l)
    (hstep : Joint E M (c,p) l (c',p')) : Trapped E f (ls++[l]) c' p' ∧
      writers p' = writers p + if entersSender l then 1 else 0 := by
  have hkept := kept_step h.kept hstep
  obtain ⟨⟨_,t,_,hexec⟩,hprocess : ProcessStep E p l p'⟩ := hstep
  obtain ⟨hcall,hinherited⟩ := process_registers h.held hprocess
  have hlater : Registered E ls → Registered E (ls++[l]) :=
    fun hr => registered_snoc hr hcall hinherited
  have hall : ∀ x ∈ p.functions, Held E (ls++[l]) x := fun x hx => held_later (h.held x hx) hlater
  cases hprocess with
  | begin e scheduled idle =>
    refine ⟨⟨hkept,h.uncounted,held_cons rfl ?_ fun y hy => (by cases hy)⟩,?_⟩
    · refine ⟨fun k hk => ?_,fun hcb => (by cases hcb),fun hpast => ?_⟩
      · obtain rfl := Option.some.inj hk
        exact start_atStart e
      · rcases hpast with hpast | ⟨k,hk,hafter⟩
        · cases e <;> cases hpast
        · obtain rfl := Option.some.inj hk
          cases e <;> exact hafter.elim
    · rw [writers,writers,idle]
      rfl
  | call callback k rest hp =>
    have hx := h.held ⟨callback,.calling k⟩ (by simp [hp])
    exact ⟨⟨hkept,h.uncounted,held_cons rfl (held_called hx hlater)
      fun y hy => hall y (by simp [hp,hy])⟩,writers_same hp rfl rfl⟩
  | returned callback k rest hp v =>
    have hx := h.held ⟨callback,.waiting k⟩ (by simp [hp])
    have hquiet : ∀ s dataOffset toWrite, k ≠ .sending s dataOffset toWrite := by
      rintro s dataOffset toWrite rfl
      exact hsend ⟨⟨s,dataOffset,toWrite,callback,rest,hp⟩,_,_,rfl⟩
    have hroom : ∀ s (txAvailable : UInt32), k = .condition s →
        (⟨_,v⟩ : Val (platform P)) = ⟨.uint32,txAvailable⟩ → 0 < txAvailable := by
      rintro s txAvailable rfl hv
      exact hroomy s _ txAvailable ⟨callback,rest,hp⟩ (congrArg _ hv)
    obtain ⟨hcur,hloop,hnext⟩ := resume_loops hquiet hroom (hx.atStart k rfl)
    rw [h.uncounted] at hkept ⊢
    obtain ⟨hheld,hwriters⟩ := held_proceed hp hx hlater (fun y hy => hall y (by simp [hp,hy]))
      hloop hnext
    exact ⟨⟨hkept,(proceed_currentTxBytes _).trans hcur,hheld⟩,hwriters⟩
  | invoked u e cb s =>
    have hseen : ((c.withMachine t).raise u e).2 = .invoked cb s e := by
      rw [Config.exec_raise hexec]
    have hmachine : Trapped E f ls (c.withMachine t) p :=
      ⟨kept_machine h.kept t,h.uncounted,h.held⟩
    obtain ⟨hheld,hcur,hwriters⟩ := held_invoked hmachine hlater hseen
    exact ⟨⟨hkept,hcur,hheld⟩,hwriters⟩
  | callbackReturn cb rest hp =>
    have hx := h.held ⟨some cb,.returning⟩ (by simp [hp])
    refine ⟨⟨hkept,h.uncounted,fun y hy => hall y (by rw [hp]; exact List.mem_cons_of_mem _ hy)⟩,?_⟩
    have hcb : some cb ≠ some .writeUntilBufferFull := by
      intro hcb
      obtain ⟨k,hk,_⟩ := hx.loops hcb
      cases hk
    rw [writers,writers,hp,List.countP_cons_of_neg (by simpa [isWriter] using hcb)]
    rfl
  | udp move seen hseen =>
    refine ⟨⟨hkept,h.uncounted,hall⟩,?_⟩
    cases seen with
    | invoked => exact hseen.elim
    | _ => rfl

def Repeats (E : Example P η) (l : Label (platform P) η ι) : Prop :=
  l.1 ≠ .call (.helix E.localSocket) .close ∧
  ∀ s packet flags, l.1 = .call s (.send packet flags) →
    ∃ toWrite, packet = some (E.createPacket (written 0 toWrite))

omit [DecidableEq η] [DecidableEq ι] in
theorem location_repeats {k : Location P η ι} (h : AtStart E k) :
    Repeats E ((.call (k.socket E) (k.op E),.nothing) : Label (platform P) η ι) := by
  refine ⟨fun ha => ?_,fun s packet flags ha => ?_⟩
  · obtain ⟨hs,ho⟩ := Action.call.inj ha
    rw [location_closes hs.symm ho.symm] at h
    exact h rfl
  · cases k with
    | sending s' dataOffset toWrite =>
      obtain rfl : dataOffset = 0 := h
      cases ha
      exact ⟨toWrite,rfl⟩
    | _ => cases ha

omit [DecidableEq ι] in
theorem process_repeats (h : ∀ x ∈ p.functions, Held E ls x) (hstep : ProcessStep E p l p') :
    Repeats E l := by
  cases hstep with
  | begin e scheduled idle => exact location_repeats (start_atStart e)
  | call callback k rest hp =>
    exact location_repeats ((h ⟨callback,.calling k⟩ (by simp [hp])).atStart k rfl)
  | returned | invoked | callbackReturn | udp =>
    exact ⟨fun h => (by cases h),fun _ _ _ h => (by cases h)⟩

/-- Room announced from within `Send` enters the sender. -/
theorem announced_enters (h : Trapped E f ls c p) {s : SocketRef η ι} {dataOffset toWrite : UInt32}
    (hwaits : WaitsAt p (.sending s dataOffset toWrite)) (hannounces : Announces E f l)
    (hstep : Joint E M (c,p) l (c',p')) : entersSender l = true := by
  obtain ⟨callback,rest,hp⟩ := hwaits
  obtain ⟨n,ha⟩ := hannounces
  obtain ⟨⟨_,t,_,hexec⟩,_⟩ := hstep
  have hregistered : Registered E ls :=
    (h.held _ (by rw [hp]; exact List.mem_cons_self)).hooked
      (.inr ⟨.sending s dataOffset toWrite,rfl,trivial⟩)
  rw [ha] at hexec
  have hseen : l.2 = (history E.localSocket ls).answer E.localSocket (.send n) := by
    rw [← raise_answer (kept_machine h.kept t).tracks,Config.exec_raise hexec]
  rw [entersSender,hseen,History.answer,show (history E.localSocket ls).registered (.send n) = _
    from hregistered]

end Trap

section Runs

variable [DecidableEq η] [DecidableEq ι] {E : Example P η} {M : UdpMachine (platform P) ι}
  {f : η ↪ ι} {tr : List ((Config (platform P) η ι M × Process P η ι) × Label (platform P) η ι)}
  {x : Config (platform P) η ι M × Process P η ι}

/-- Before `Send` returns the UDP socket has announced room from within it. -/
def Announced (E : Example P η) (f : η ↪ ι)
    (tr : List ((Config (platform P) η ι M × Process P η ι) × Label (platform P) η ι)) : Prop :=
  ∀ pre y l post, tr = pre ++ (y,l) :: post → SendReturns y.2 l →
    ∃ e ∈ pre, e.1.2.functions = y.2.functions ∧ Announces E f e.2

omit [DecidableEq η] [DecidableEq ι] in
theorem announced_earlier {e : (Config (platform P) η ι M × Process P η ι) × Label (platform P) η ι}
    (h : Announced E f (tr++[e])) : Announced E f tr := by
  rintro pre y l post rfl hreturns
  exact h pre y l (post++[e]) (by simp) hreturns

/-- What holds in every run of the sender over such a layer. An announcement
leaves a callback behind, so that the functions are never what they were. -/
structure Repeating (E : Example P η) (f : η ↪ ι)
    (tr : List ((Config (platform P) η ι M × Process P η ι) × Label (platform P) η ι))
    (x : Config (platform P) η ι M × Process P η ι) : Prop where
  trapped : Trapped E f (labels tr) x.1 x.2
  never : ∀ e ∈ tr, ¬ SendReturns e.1.2 e.2
  entries : writers x.2 = (labels tr).countP entersSender
  deeper : ∀ e ∈ tr, ∀ s dataOffset toWrite, WaitsAt e.1.2 (.sending s dataOffset toWrite) →
    Announces E f e.2 → writers e.1.2 < writers x.2
  repeats : ∀ l ∈ labels tr, Repeats E l

theorem run_repeating (hrun : Run (Joint E M) (initial M f,Process.initial) tr x)
    (hroomy : ∀ e ∈ tr, Roomy e.1.2 e.2) (hannounced : Announced E f tr) :
    Repeating E f tr x := by
  induction hrun with
  | nil => exact ⟨⟨kept_initial M f,rfl,fun _ h => (by cases h)⟩,fun _ h => (by cases h),rfl,
      fun _ h => (by cases h),fun _ h => (by cases h)⟩
  | @snoc tr t u l run last ih =>
    have h := ih (fun e he => hroomy e (List.mem_append_left _ he)) (announced_earlier hannounced)
    have hsend : ¬ SendReturns t.2 l := by
      intro hreturns
      obtain ⟨e,he,hsame,hann⟩ := hannounced tr t l [] rfl hreturns
      obtain ⟨⟨s,dataOffset,toWrite,callback,rest,hp⟩,_⟩ := hreturns
      have hdeeper := h.deeper e he s dataOffset toWrite ⟨callback,rest,hsame.trans hp⟩ hann
      rw [writers,writers,hsame] at hdeeper
      exact Nat.lt_irrefl _ hdeeper
    obtain ⟨htrapped,hwriters⟩ := trapped_step h.trapped hsend (hroomy (t,l) (by simp)) last
    refine ⟨by simpa using htrapped,fun e he => ?_,?_,
      fun e he s dataOffset toWrite hwaits hann => ?_,fun k hk => ?_⟩
    · rcases List.mem_append.mp he with he | he
      · exact h.never e he
      · obtain rfl := List.mem_singleton.mp he
        exact hsend
    · rw [hwriters,h.entries,labels_append,List.countP_append]
      simp
    · rcases List.mem_append.mp he with he | he
      · have hdeeper := h.deeper e he s dataOffset toWrite hwaits hann
        omega
      · obtain rfl := List.mem_singleton.mp he
        rw [hwriters,announced_enters h.trapped hwaits hann last]
        exact Nat.lt_succ_self _
    · rcases List.mem_append.mp (by simpa using hk : k ∈ labels tr ++ [l]) with hk | hk
      · exact h.repeats k hk
      · obtain rfl := List.mem_singleton.mp hk
        exact process_repeats h.trapped.held last.2

/-- Over a UDP layer that announces room before `Send` returns, and has room
whenever the loop asks, no `Send` ever returns: every entry of the sender is
still in progress, each sends the beginning of the buffer, nothing is counted
and the socket is not closed. -/
theorem send_never_returns (hrun : Run (Joint E M) (initial M f,Process.initial) tr x)
    (hroomy : ∀ e ∈ tr, Roomy e.1.2 e.2) (hannounced : Announced E f tr) :
    (∀ e ∈ tr, ¬ SendReturns e.1.2 e.2) ∧ x.2.currentTxBytes = 0 ∧
    writers x.2 = (labels tr).countP entersSender ∧ ∀ l ∈ labels tr, Repeats E l := by
  have h := run_repeating hrun hroomy hannounced
  exact ⟨h.never,h.trapped.uncounted,h.entries,h.repeats⟩

omit [DecidableEq η] [DecidableEq ι] in
/-- As long as no `Send` returns nothing is asked of the layer. -/
theorem announced_never (h : ∀ e ∈ tr, ¬ SendReturns e.1.2 e.2) : Announced E f tr := by
  rintro pre y l post rfl hreturns
  exact absurd hreturns (h (y,l) (by simp))

omit [DecidableEq η] [DecidableEq ι] in
theorem pending_roomy {p : Process P η ι} {l : Label (platform P) η ι}
    (h : Obliging (fun k v => ¬ IsSending k ∧ Accepting k v) p l) :
    Roomy p l ∧ ¬ SendReturns p l := by
  refine ⟨fun s r txAvailable hwaits hl => ?_,fun hreturns => ?_⟩
  · obtain ⟨callback,rest,hp⟩ := hwaits
    obtain ⟨_,txAvailable',hpos,hv⟩ := h.accepts _ _ _ _ _ hp hl
    cases hv
    exact hpos
  · obtain ⟨⟨s,dataOffset,toWrite,callback,rest,hp⟩,r,v,hl⟩ := hreturns
    exact (h.accepts _ _ _ _ _ hp hl).1 trivial

omit [DecidableEq η] [DecidableEq ι] in
theorem quiet_roomy {p : Process P η ι} {l : Label (platform P) η ι}
    (h : ∀ r v, l.2 ≠ .returned r v) : Roomy p l ∧ ¬ SendReturns p l :=
  ⟨fun _ _ _ _ hl => absurd hl (h _ _),fun hreturns =>
    (by obtain ⟨_,r,v,hl⟩ := hreturns; exact h r v hl)⟩

structure Unanswered (E : Example P η) (f : η ↪ ι)
    (tr : List ((Config (platform P) η ι M × Process P η ι) × Label (platform P) η ι))
    (x : Config (platform P) η ι M × Process P η ι) : Prop where
  run : Run (Joint E M) (initial M f,Process.initial) tr x
  quiet : ∀ e ∈ tr, Roomy e.1.2 e.2 ∧ ¬ SendReturns e.1.2 e.2

theorem unanswered_snoc {y : Config (platform P) η ι M × Process P η ι}
    {l : Label (platform P) η ι} (h : Unanswered E f tr x) (hstep : Joint E M x l y)
    (hl : ∀ r v, l.2 ≠ .returned r v) : Unanswered E f (tr++[(x,l)]) y := by
  refine ⟨.snoc h.run hstep,fun e he => ?_⟩
  rcases List.mem_append.mp he with he | he
  · exact h.quiet e he
  · obtain rfl := List.mem_singleton.mp he
    exact quiet_roomy hl

theorem unanswered_repeating (h : Unanswered E f tr x) : Repeating E f tr x :=
  run_repeating h.run (fun e he => (h.quiet e he).1) (announced_never fun e he => (h.quiet e he).2)

theorem nested_runs (E : Example P η) (f : η ↪ ι) : ∃ tr x,
    Unanswered (M := arbitrary) E f tr x ∧ 0 < (labels tr).countP entersSender := by
  obtain ⟨tr,c,hrun,hall,hrest⟩ := first_send_runs E f
  have hfirst : Unanswered E f tr _ := ⟨hrun,fun e he => pending_roomy (hall e he)⟩
  obtain ⟨c',_,hcalled,-,hstack,-⟩ := entered hrest E.localSocket
    (Location.op E (.sending (.helix E.localSocket : SocketRef η ι) 0 (portion 0)))
  have hcall : ProcessStep E (alone 0 [.closeSocket]
      (.sending (.helix E.localSocket : SocketRef η ι) 0 (portion 0))) _ _ := .call none _ [] rfl
  have hsend : Unanswered E f _ (c',_) :=
    unanswered_snoc hfirst ⟨hcalled,hcall⟩ fun _ _ h => (by cases h)
  have hruns : c'.udpRuns = true := by rw [Config.udpRuns,hstack]
  have hraise : Step arbitrary c'
      (.udp (.raise (f E.localSocket) (.send 0)),(c'.raise (f E.localSocket) (.send 0)).2)
      (c'.raise (f E.localSocket) (.send 0)).1 :=
    ⟨trivial,(),trivial,if_pos hruns⟩
  obtain ⟨hturns,hfollows⟩ := run_follows hsend.run
  obtain ⟨p',hp'⟩ := process_accepts hfollows
    (step_continues (run_kept hsend.run).tracks hturns hraise)
  have henters := announced_enters (unanswered_repeating hsend).trapped ⟨none,[],rfl⟩ ⟨0,rfl⟩
    ⟨hraise,hp'⟩
  have hquiet : ∀ r v, (c'.raise (f E.localSocket) (.send 0)).2 ≠ .returned r v := by
    intro r v h
    rw [entersSender,h] at henters
    cases henters
  have hentered : Unanswered E f _ (_,p') := unanswered_snoc hsend ⟨hraise,hp'⟩ hquiet
  refine ⟨_,_,hentered,?_⟩
  rw [labels_append,List.countP_append]
  simp [henters]

/-- The sender is entered again and stays in progress. -/
theorem sender_entered_again : ∃ tr x,
    Run (Joint unitExample arbitrary) (initial arbitrary (.refl Bool),Process.initial) tr x ∧
    0 < writers x.2 ∧ x.2.currentTxBytes = 0 := by
  obtain ⟨tr,x,h,henters⟩ := nested_runs unitExample (.refl Bool)
  obtain ⟨-,hcur,hwriters,-⟩ := send_never_returns h.run (fun e he => (h.quiet e he).1)
    (announced_never fun e he => (h.quiet e he).2)
  exact ⟨tr,x,h.run,hwriters ▸ henters,hcur⟩

end Runs

end Ns3Helix.TransferRecursion
