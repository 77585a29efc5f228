import Ns3Helix.SocketHistory
import Ns3Helix.SocketSimulation

/-!
# Calls, returns and what the UDP layer is told

The wrapper adds no call of its own: the UDP layer is entered once for each
operation of the application and for nothing else. Calls, callbacks and
returns are bracketed, and every return goes to the call that waits for it,
however deeply the two sides call each other.
-/

set_option autoImplicit false

namespace Ns3Helix.SocketCalls
open Ns3Helix.InteractionProgram Ns3Helix.SocketInterface Ns3Helix.SocketImpl
open Ns3Helix.SocketMachine Ns3Helix.SocketHistory Ns3Helix.SocketSimulation
open Ns3Helix.TransitionSystem

variable {P : Platform} {η ι : Type} {M : UdpMachine P ι}

abbrev Entry (P : Platform) (ι : Type) := ι × Op P (fun _ => Unit)

section Entries

def logged (M : UdpMachine P ι) : UdpMachine P ι where
  State := M.State × List (Entry P ι)
  init := (M.init,[])
  enter s u o := (M.enter s.1 u o,s.2++[(u,o)])
  resume s := (M.resume s.1,s.2)
  move s move s' := M.move s.1 move s'.1 ∧ s'.2 = s.2

def issued (f : η ↪ ι) : Action P η ι → Option (Entry P ι)
  | .call (.helix h) o => some (f h,(forwarded h o).erase)
  | .call (.udp u) o => some (u,(appOp (η := η) o).erase)
  | _ => none

variable {f : η ↪ ι} {ls : List (Label P η ι)} {c : Config P η ι M}

inductive Told (f : η ↪ ι) (c : Config P η ι M) (a : Action P η ι) (s : M.State) : Prop
  | entered (u : ι) (o : Op P (fun _ => Unit)) (call : issued f a = some (u,o))
      (state : s = M.enter c.machine u o)
  | resumed (call : issued f a = none) (state : s = M.resume c.machine)
  | unaware (call : issued f a = none) (state : s = c.machine)

theorem told_giveBack {a : Action P η ι} (ha : issued f a = none) (s : SocketRef η ι) (v : Val P)
    {d : Config P η ι M} (hd : d.machine = c.machine) : Told f c a (d.giveBack s v).1.machine := by
  unfold Config.giveBack
  split
  · exact .unaware ha hd
  · exact .resumed ha (congrArg M.resume hd)

variable [DecidableEq η] [DecidableEq ι]

theorem told_echo {a : Action P η ι} (ha : issued f a = none) (g : η) {t t' : Ty}
    {m : t.denote P → SocketM P η ι (t'.denote P)} (hm : Echoes t t' m) (v : t.denote P)
    {d : Config P η ι M} (hd : d.machine = c.machine) :
    Told f c a (d.run g t' (m v)).1.machine := by
  obtain ⟨out,hrun⟩ := Config.run_echo d g hm v
  rw [hrun]
  exact told_giveBack ha (.helix g) ⟨t,v⟩ hd

theorem raise_machine (c : Config P η ι M) (u : ι) (e : Event) :
    (c.raise u e).1.machine = c.machine := by
  cases hcb : (c.udp u).callback e.slot with
  | none => rw [Config.raise_none hcb]
  | some target =>
    rcases target_cases target with ⟨cb,rfl⟩ | ⟨g,hg⟩
    · rw [Config.raise_app hcb]
      rfl
    · rw [Config.raise_bound hcb hg,Config.reach]
      cases (c.socket g).kept e <;> rfl

/-- The UDP layer is entered by a call of the application only, and once. -/
theorem exec_told (h : Tracks f ls c) {a : Action P η ι} {r : Config P η ι M × Seen P η ι}
    (hexec : c.exec a = some r) : Told f c a r.1.machine := by
  cases Config.exec_executes hexec with
  | call s o _ =>
    cases s with
    | udp u => exact .entered u (appOp o).erase rfl rfl
    | helix g =>
      obtain ⟨out,m,hcall,_⟩ := Config.call_helix c g o (f g) (h.owner g)
      rw [hcall]
      exact .entered (f g) (forwarded g o).erase rfl rfl
  | inherited s i _ => cases s <;> exact .unaware rfl rfl
  | resumeMethod w rest hs =>
    exact told_echo rfl w.socket (Config.echoing_head h.echoing hs) () rfl
  | resumeUdp rest hs => exact .resumed rfl rfl
  | «return» u t v caller rest hs =>
    cases caller with
    | none => exact told_giveBack rfl (.udp u) ⟨t,v⟩ rfl
    | some w => exact told_echo rfl w.socket (Config.echoing_head h.echoing hs) v rfl
  | raise u e _ => exact .unaware rfl (raise_machine c u e)
  | transmit | receive => exact .unaware rfl rfl
  | wake _ => exact .unaware rfl rfl
  | sleep rest hs => exact .unaware rfl rfl

def entries (f : η ↪ ι) (ls : List (Label P η ι)) : List (Entry P ι) :=
  ls.filterMap fun l => issued f l.1

omit [DecidableEq η] [DecidableEq ι] in
theorem moves_log {s s' : (logged M).State} {a : Action P η ι} (h : Moves (logged M) s a s') :
    s'.2 = s.2 := by
  cases a with
  | udp move => exact h.2
  | call | inherited | callbackReturn => rw [show s' = s from h]

theorem run_log {tr : List (Config P η ι (logged M) × Label P η ι)} {c : Config P η ι (logged M)}
    (hrun : Run (Step (logged M)) (initial (logged M) f) tr c) :
    c.machine.2 = entries f (labels tr) := by
  induction hrun with
  | nil => rfl
  | @snoc tr t u l run last ih =>
    obtain ⟨_,s,hmoves,hexec⟩ := last
    have hlog : s.2 = entries f (labels tr) := (moves_log hmoves).trans ih
    have htold := exec_told (tracks_machine (run_tracks run) s) hexec
    rw [entries,labels_append,List.filterMap_append]
    cases htold with
    | entered u o call state =>
      rw [state]
      simp [logged,call,hlog,entries,Config.withMachine]
    | resumed call state =>
      rw [state]
      simp [logged,call,hlog,entries,Config.withMachine]
    | unaware call state =>
      rw [state]
      simp [call,hlog,entries,Config.withMachine]

abbrev Unlogged : Config P η ι (logged M) → Config P η ι M → Prop :=
  Similar (fun s t => s.1 = t) fun _ => True

omit [DecidableEq η] [DecidableEq ι] in
theorem respects_log : Respects fun (s : (logged M).State) (t : M.State) => s.1 = t where
  enter h u o := by rw [← h]; rfl
  resume h := by rw [← h]; rfl

omit [DecidableEq η] [DecidableEq ι] in
theorem inhabited_all (c : Config P η ι M) : Inhabited (fun _ => True) c where
  stack g _ := by
    cases g with
    | udp u t caller => cases caller <;> trivial
    | app caller => cases caller <;> trivial
    | spontaneous => trivial
    | dead => trivial
  owner _ _ _ _ _ _ := trivial

omit [DecidableEq η] [DecidableEq ι] in
theorem onLive_all (a : Action P η ι) : OnLive (fun _ => True) a := by
  cases a with
  | call s o => cases s <;> trivial
  | inherited s i => cases s <;> trivial
  | callbackReturn => trivial
  | udp move => trivial

omit [DecidableEq η] [DecidableEq ι] in
theorem unlogged_admits {c : Config P η ι (logged M)} {d : Config P η ι M} (h : Unlogged c d)
    (a : Action P η ι) : c.Admits a ↔ d.Admits a := by
  have same : ∀ g, (c.socket g).mUdpSocket = (d.socket g).mUdpSocket :=
    fun g => (h.socket g trivial).udpSocket
  cases a with
  | call s o => cases s <;> simp [Config.Admits,same]
  | inherited s i => cases s <;> simp [Config.Admits,same]
  | callbackReturn => simp [Config.Admits]
  | udp move => simp [Config.Admits]

theorem unlogged_bisimulation (M : UdpMachine P ι) :
    Bisimulation (Step (logged M)) (Step M) Eq (fun _ => True) (fun _ => True)
      (Unlogged (η := η)) where
  forth := by
    rintro c d ⟨a,seen⟩ c' h _ ⟨hadmits,s,hmoves,hexec⟩
    have hs : Unlogged (c.withMachine s) (d.withMachine s.1) := { h with machine := rfl }
    obtain ⟨q,hq,hmatched⟩ := exec_similar respects_log hs (inhabited_all _) (onLive_all a) hexec
    have hmoves' : Moves M d.machine a s.1 := by
      rw [← h.machine]
      cases a with
      | udp move => exact hmoves.1
      | call | inherited | callbackReturn => exact congrArg Prod.fst hmoves
    refine ⟨(a,seen),q.1,rfl,trivial,⟨(unlogged_admits h a).mp hadmits,s.1,hmoves',?_⟩,
      hmatched.similar⟩
    rw [hq,show seen = q.2 from hmatched.seen]
  back := by
    rintro c d ⟨a,seen⟩ d' h _ ⟨hadmits,t,hmoves,hexec⟩
    have hs : Unlogged (c.withMachine (t,c.machine.2)) (d.withMachine t) :=
      { h with machine := rfl }
    obtain ⟨q,hq,hmatched⟩ := exec_similar (respects_flip respects_log) (similar_flip hs)
      (inhabited_all _) (onLive_all a) hexec
    have hmoves' : Moves (logged M) c.machine a (t,c.machine.2) := by
      rw [← h.machine] at hmoves
      cases a with
      | udp move => exact ⟨hmoves,rfl⟩
      | call | inherited | callbackReturn => exact Prod.ext hmoves rfl
    refine ⟨(a,seen),q.1,rfl,trivial,⟨(unlogged_admits h a).mpr hadmits,_,hmoves',?_⟩,
      similar_flip hmatched.similar⟩
    rw [hq,show seen = q.2 from hmatched.seen]

omit [DecidableEq η] [DecidableEq ι] in
theorem unlogged_initial (f : η ↪ ι) : Unlogged (initial (logged M) f) (initial M f) :=
  ⟨rfl,rfl,rfl,rfl,fun _ _ => alike_refl _⟩

/-- The log takes no part in what happens, and in every run it holds one entry
for each operation called, in order: the same operation with the same
arguments, on the socket below, with no callback null. -/
theorem called_once_in_order (M : UdpMachine P ι) (f : η ↪ ι) :
    (∀ ls, Traces (Step (logged M)) (initial (logged M) f) ls ↔ Traces (Step M) (initial M f) ls) ∧
    ∀ tr c, Run (Step (logged M)) (initial (logged M) f) tr c →
      c.machine.2 = entries f (labels tr) := by
  refine ⟨fun ls => ?_,fun tr c hrun => run_log hrun⟩
  have hsame := bisimulation_traces (unlogged_bisimulation M) (unlogged_initial f)
  constructor
  · intro h
    obtain ⟨ks,hks,_,heq⟩ := hsame.1 ls h fun _ _ => trivial
    rw [List.forall₂_eq_eq_eq] at heq
    exact heq ▸ hks
  · intro h
    obtain ⟨ks,hks,_,heq⟩ := hsame.2 ls h fun _ _ => trivial
    rw [List.forall₂_eq_eq_eq] at heq
    exact heq ▸ hks

end Entries

section Brackets

inductive Activity (η ι : Type)
  | call (s : SocketRef η ι) (t : Ty)
  | callback
  | spontaneous
  | stopped
  deriving DecidableEq, Repr

def AppTurn : List (Activity η ι) → Bool
  | [] => true
  | .callback :: _ => true
  | _ => false

def UdpTurn : List (Activity η ι) → Bool
  | .call _ _ :: _ => true
  | .spontaneous :: _ => true
  | _ => false

/-- One event of a conversation between the application and the UDP layer.
What has begun last ends first, and a return ends the call it is for. -/
inductive Continues : List (Activity η ι) → Label P η ι → List (Activity η ι) → Prop
  | call {as : List (Activity η ι)} (turn : AppTurn as = true) (s : SocketRef η ι)
      (o : Op P (fun _ => P.AppCallback)) : Continues as (.call s o,.nothing) (.call s o.ty :: as)
  | inherited {as : List (Activity η ι)} (turn : AppTurn as = true) (s : SocketRef η ι)
      (i : Inherited (fun _ => P.AppCallback)) {κ : Slot → Type} (d : SocketFields P κ) :
      Continues as (.inherited s i,inheritedSeen d i) as
  | returned {as : List (Activity η ι)} (s : SocketRef η ι) (v : Val P) :
      Continues (.call s v.1 :: as) (.udp (.return v),.returned s v) as
  | invoked {as : List (Activity η ι)} (turn : UdpTurn as = true) (u : ι) (e : Event)
      (cb : P.AppCallback) (s : SocketRef η ι) :
      Continues as (.udp (.raise u e),.invoked cb s e) (.callback :: as)
  | ignored {as : List (Activity η ι)} (turn : UdpTurn as = true) (u : ι) (e : Event) :
      Continues as (.udp (.raise u e),.nothing) as
  | crashed {as : List (Activity η ι)} (turn : UdpTurn as = true) (u : ι) (e : Event) :
      Continues as (.udp (.raise u e),.crashed .nullCallback) (.stopped :: as)
  | callbackReturn {as : List (Activity η ι)} :
      Continues (.callback :: as) (.callbackReturn,.nothing) as
  | transmit {as : List (Activity η ι)} (turn : UdpTurn as = true) (u : ι) (connected : Bool)
      (address : P.Address) (tags : SendTags) :
      Continues as (.udp (.transmit u connected address),.stamped tags) as
  | receive {as : List (Activity η ι)} (turn : UdpTurn as = true) (u : ι)
      (fromAddress : P.Address) (tags : List OptionName) :
      Continues as (.udp (.receive u fromAddress),.informed tags) as
  | wake {as : List (Activity η ι)} (turn : AppTurn as = true) :
      Continues as (.udp .wake,.nothing) (.spontaneous :: as)
  | sleep {as : List (Activity η ι)} : Continues (.spontaneous :: as) (.udp .sleep,.nothing) as

def Alternating : List (Activity η ι) → Prop
  | [] => True
  | .call _ _ :: as => AppTurn as = true ∧ Alternating as
  | .callback :: as => UdpTurn as = true ∧ Alternating as
  | .spontaneous :: as => AppTurn as = true ∧ Alternating as
  | .stopped :: as => UdpTurn as = true ∧ Alternating as

theorem continues_alternating {as as' : List (Activity η ι)} {l : Label P η ι}
    (h : Continues as l as') (has : Alternating as) : Alternating as' := by
  cases h with
  | call turn s o => exact ⟨turn,has⟩
  | inherited | ignored | transmit | receive => exact has
  | returned | callbackReturn | sleep => exact has.2
  | invoked turn u e cb s => exact ⟨turn,has⟩
  | crashed turn u e => exact ⟨turn,has⟩
  | wake turn => exact ⟨turn,has⟩

theorem run_alternating {tr : List (List (Activity η ι) × Label P η ι)}
    {as : List (Activity η ι)} (hrun : Run Continues [] tr as) : Alternating as :=
  run_invariant Alternating (show Alternating [] from trivial)
    (fun _ _ _ has h => continues_alternating h has) hrun

def activity : Frame P η ι → Activity η ι
  | .udp _ t (some w) => .call (.helix w.socket) t
  | .udp u t none => .call (.udp u) t
  | .app _ => .callback
  | .spontaneous => .spontaneous
  | .dead => .stopped

def activities (c : Config P η ι M) : List (Activity η ι) := c.stack.map activity

section
variable (c : Config P η ι M)

theorem activities_appTurn : AppTurn (activities c) = c.appRuns := by
  unfold activities Config.appRuns
  cases c.stack with
  | nil => rfl
  | cons f rest => cases f with
    | udp u t caller => cases caller <;> rfl
    | app caller => rfl
    | spontaneous => rfl
    | dead => rfl

theorem activities_udpTurn : UdpTurn (activities c) = c.udpRuns := by
  unfold activities Config.udpRuns
  cases c.stack with
  | nil => rfl
  | cons f rest => cases f with
    | udp u t caller => cases caller <;> rfl
    | app caller => rfl
    | spontaneous => rfl
    | dead => rfl

theorem turns_exclusive {as : List (Activity η ι)} (h : UdpTurn as = true) :
    AppTurn as = false := by
  cases as with
  | nil => cases h
  | cons a as =>
    cases a with
    | callback => cases h
    | call | spontaneous | stopped => rfl

end

variable [DecidableEq η] [DecidableEq ι] {f : η ↪ ι} {ls : List (Label P η ι)}
  {c : Config P η ι M}

theorem callback_returns {as : List (Activity η ι)} (c : Config P η ι M)
    (h : activities c = .callback :: as) :
    ∃ r, c.exec .callbackReturn = some r := by
  apply Option.isSome_iff_exists.mp
  obtain ⟨x,rest,hstack,hx,_⟩ := List.map_eq_cons_iff.mp h
  cases x with
  | app caller => cases caller <;> simp [Config.exec,hstack]
  | udp u t caller => cases caller <;> cases hx
  | spontaneous => cases hx
  | dead => cases hx

theorem call_continues (h : Tracks f ls c) (hruns : c.appRuns = true) (s : SocketRef η ι)
    (o : Op P (fun _ => P.AppCallback)) :
    Continues (activities c) (.call s o,(c.call s o).2) (activities (c.call s o).1) := by
  have turn : AppTurn (activities c) = true := (activities_appTurn c).trans hruns
  cases s with
  | udp u =>
    have hty : (appOp (η := η) o).ty = o.ty := map_ty _ _ o
    show Continues _ (_,.nothing) (.call (.udp u) (appOp o).ty :: activities c)
    rw [hty]
    exact .call turn (.udp u) o
  | helix g =>
    obtain ⟨out,k,hcall,_⟩ := Config.call_helix c g o (f g) (h.owner g)
    have hty : (forwarded g o).ty = o.ty := map_ty _ _ o
    rw [hcall]
    show Continues _ (_,.nothing) (.call (.helix g) (forwarded g o).ty :: activities c)
    rw [hty]
    exact .call turn (.helix g) o

theorem raise_continues (hruns : c.udpRuns = true) (u : ι) (e : Event) :
    Continues (activities c) (.udp (.raise u e),(c.raise u e).2) (activities (c.raise u e).1) := by
  have turn : UdpTurn (activities c) = true := (activities_udpTurn c).trans hruns
  cases hcb : (c.udp u).callback e.slot with
  | none =>
    rw [Config.raise_none hcb]
    exact .ignored turn u e
  | some target =>
    rcases target_cases target with ⟨cb,rfl⟩ | ⟨g,hg⟩
    · rw [Config.raise_app hcb]
      exact .invoked turn u e cb (.udp u)
    · rw [Config.raise_bound hcb hg,Config.reach]
      cases (c.socket g).kept e with
      | none => exact .crashed turn u e
      | some cb => exact .invoked turn u e cb (.helix g)

omit [DecidableEq η] [DecidableEq ι] in
theorem giveBack_returned (c : Config P η ι M) (hruns : c.appRuns = true) (s : SocketRef η ι)
    (v : Val P) : c.giveBack s v = (c,.returned s v) := if_pos hruns

omit [DecidableEq η] [DecidableEq ι] in
theorem giveBack_resumed (c : Config P η ι M) (hruns : c.appRuns = false) (s : SocketRef η ι)
    (v : Val P) : c.giveBack s v = (c.resume,.nothing) := by
  rw [Config.giveBack,hruns]
  rfl

omit [DecidableEq η] [DecidableEq ι] in
/-- A call has been made by the application, and returns to it. -/
theorem return_runs (hturns : Alternating (activities c)) {u : ι} {t : Ty}
    {caller : Option (Waiting P η ι t)} {rest : List (Frame P η ι)}
    (hs : c.stack = .udp u t caller :: rest) : (c.unwind rest).appRuns = true := by
  rw [show activities c = activity (.udp u t caller) :: activities (c.unwind rest) by
    rw [activities,hs]; rfl] at hturns
  rw [← activities_appTurn]
  cases caller <;> exact hturns.1

theorem exec_continues (h : Tracks f ls c) (hturns : Alternating (activities c))
    {a : Action P η ι} {r : Config P η ι M × Seen P η ι} (hexec : c.exec a = some r) :
    Continues (activities c) (a,r.2) (activities r.1) := by
  cases Config.exec_executes hexec with
  | call s o runs => exact call_continues h runs s o
  | inherited s i runs =>
    have turn : AppTurn (activities c) = true := (activities_appTurn c).trans runs
    cases s with
    | helix g => exact .inherited turn (.helix g) i (c.socket g).base
    | udp u => exact .inherited turn (.udp u) i (c.udp u)
  | resumeMethod w rest hs =>
    have hstack : activities c = .callback :: activities (c.unwind rest) := by
      rw [activities,hs]
      rfl
    rw [hstack] at hturns ⊢
    obtain ⟨out,hrun⟩ := Config.run_echo (c.unwind rest) w.socket
      (Config.echoing_head h.echoing hs) ()
    have hbusy : Config.appRuns ({ c.unwind rest with printed := out } : Config P η ι M) = false :=
      (activities_appTurn (c.unwind rest)).symm.trans (turns_exclusive hturns.1)
    rw [hrun,giveBack_resumed _ hbusy]
    exact .callbackReturn
  | resumeUdp rest hs =>
    have hstack : activities c = .callback :: activities (c.unwind rest) := by
      rw [activities,hs]
      rfl
    rw [hstack]
    exact .callbackReturn
  | «return» u t v caller rest hs =>
    have hruns := return_runs hturns hs
    cases caller with
    | none =>
      have hstack : activities c = .call (.udp u) t :: activities (c.unwind rest) := by
        rw [activities,hs]
        rfl
      rw [hstack,Config.handOver,giveBack_returned _ hruns]
      exact .returned (.udp u) ⟨t,v⟩
    | some w =>
      have hstack : activities c = .call (.helix w.socket) t :: activities (c.unwind rest) := by
        rw [activities,hs]
        rfl
      obtain ⟨out,hrun⟩ := Config.run_echo (c.unwind rest) w.socket
        (Config.echoing_head h.echoing hs) v
      have hruns' : ({ c.unwind rest with printed := out } : Config P η ι M).appRuns = true :=
        hruns
      rw [hstack,Config.handOver,hrun,giveBack_returned _ hruns']
      exact .returned (.helix w.socket) ⟨t,v⟩
  | raise u e runs => exact raise_continues runs u e
  | transmit u connected address runs =>
    exact .transmit ((activities_udpTurn c).trans runs) u connected address _
  | receive u fromAddress runs =>
    exact .receive ((activities_udpTurn c).trans runs) u fromAddress _
  | wake runs => exact .wake ((activities_appTurn c).trans runs)
  | sleep rest hs =>
    have hstack : activities c = .spontaneous :: activities (c.unwind rest) := by
      rw [activities,hs]
      rfl
    rw [hstack]
    exact .sleep

theorem run_continues {tr : List (Config P η ι M × Label P η ι)}
    (hrun : Run (Step M) (initial M f) tr c) :
    ∃ tr', Run Continues [] tr' (activities c) ∧ labels tr' = labels tr := by
  induction hrun with
  | nil => exact ⟨[],.nil,rfl⟩
  | @snoc tr t u l run last ih =>
    obtain ⟨tr',hrun',hlabels⟩ := ih
    obtain ⟨_,s,_,hexec⟩ := last
    have hcontinues := exec_continues (tracks_machine (run_tracks run) s)
      (run_alternating hrun') hexec
    exact ⟨_,.snoc hrun' hcontinues,by rw [labels_append,labels_append,hlabels]; rfl⟩

/-- Every trace is a conversation: calls, callbacks and returns are bracketed,
and what a call on a Helix socket returns is what its UDP socket returns. -/
theorem calls_bracketed (M : UdpMachine P ι) (f : η ↪ ι) (ls : List (Label P η ι))
    (h : Traces (Step M) (initial M f) ls) : Traces Continues [] ls := by
  obtain ⟨tr,c,hrun,rfl⟩ := h
  obtain ⟨tr',hrun',hlabels⟩ := run_continues hrun
  exact ⟨tr',_,hrun',hlabels⟩

/-- A socket is closed in a callback that is invoked while it sends. -/
theorem nested_close_bracketed : Traces Continues ([] : List (Activity Unit Unit))
    [((.call (.helix ()) (.setSendCallback (some ())) : Action .unit Unit Unit),.nothing),
      (.udp (.return ⟨.void,()⟩),.returned (.helix ()) ⟨.void,()⟩),
      (.call (.helix ()) (.send (some ()) 0),.nothing),
      (.udp (.raise () (.send 0)),.invoked () (.helix ()) (.send 0)),
      (.call (.helix ()) .close,.nothing),
      (.udp (.return ⟨.int,0⟩),.returned (.helix ()) ⟨.int,0⟩),
      (.callbackReturn,.nothing),
      (.udp (.return ⟨.int,0⟩),.returned (.helix ()) ⟨.int,0⟩)] := by
  have start : Run (Step (arbitrary : UdpMachine .unit Unit)) (initial arbitrary (.refl Unit))
    [] _ := .nil
  have called := run_then start (.call (.helix ()) (.setSendCallback (some ())),.nothing)
    ⟨trivial,(),rfl,rfl⟩
  have registered := run_then called (.udp (.return ⟨.void,()⟩),.returned (.helix ()) ⟨.void,()⟩)
    ⟨trivial,(),trivial,rfl⟩
  have sending := run_then registered (.call (.helix ()) (.send (some ()) 0),.nothing)
    ⟨trivial,(),rfl,rfl⟩
  have invoked := run_then sending
    (.udp (.raise () (.send 0)),.invoked () (.helix ()) (.send 0)) ⟨trivial,(),trivial,rfl⟩
  have closing := run_then invoked (.call (.helix ()) .close,.nothing) ⟨trivial,(),rfl,rfl⟩
  have closed := run_then closing (.udp (.return ⟨.int,0⟩),.returned (.helix ()) ⟨.int,0⟩)
    ⟨trivial,(),trivial,rfl⟩
  have done := run_then closed (.callbackReturn,.nothing) ⟨trivial,(),rfl,rfl⟩
  have hrun := run_then done (.udp (.return ⟨.int,0⟩),.returned (.helix ()) ⟨.int,0⟩)
    ⟨trivial,(),trivial,rfl⟩
  exact calls_bracketed arbitrary (.refl Unit) _ ⟨_,_,hrun,rfl⟩

end Brackets

end Ns3Helix.SocketCalls
