import Ns3Helix.ExampleSetUp
import Ns3Helix.SystemRealization

/-!
# The life of a socket of the example

Whatever the UDP layer does, a socket is bound, connected and hooked, used to
send if it is the client's, and closed, in this order and each at most once.
What was called and what is still to be called make up the whole, so that
only an event that comes after the end can find a callback missing.
-/

set_option autoImplicit false

namespace Ns3Helix.ExampleCalls
open Ns3Helix.SocketInterface Ns3Helix.SocketImpl Ns3Helix.SocketMachine
open Ns3Helix.HelixSystem Ns3Helix.HelixExample Ns3Helix.ExampleThread
open Ns3Helix.ExampleSchedule Ns3Helix.ExampleSetUp
open Ns3Helix.SocketHistory Ns3Helix.NullCallback
open Ns3Helix.SystemProjection Ns3Helix.SystemRealization
open Ns3Helix.SocketRegistry Ns3Helix.TransitionSystem

variable {P : Platform} {M : UdpMachine (platform P) ℕ} {E : Example P}

abbrev Operation (P : Platform) := Op (platform P) (fun _ => Callback)

def Reads : Operation P → Bool
  | .recvFrom _ _ _ => true
  | _ => false

def called (s : ℕ) (l : SystemLabel (platform P)) : Option (Operation P) :=
  match l with
  | (.socket (.call (.helix g) o),.socket _) => if g = s ∧ Reads o = false then some o else none
  | _ => none

def calledOn (s : ℕ) (ls : List (SystemLabel (platform P))) : List (Operation P) :=
  ls.filterMap (called s)

section Owing

def sends (socket : ℕ) : Role → List (Call P)
  | .client => [.send socket]
  | .server => []

def closing (socket : ℕ) : List (Call P) := [.close socket,.unhook socket]

/-- The calls from this one on, to the end of the closing that is scheduled. -/
def todo : Call P → List (Call P)
  | .bind role socket => .bind role socket :: .connect role socket :: .hook role socket ::
      (sends socket role ++ closing socket)
  | .connect role socket => .connect role socket :: .hook role socket ::
      (sends socket role ++ closing socket)
  | .hook role socket => .hook role socket :: (sends socket role ++ closing socket)
  | .send socket => .send socket :: closing socket
  | .recvFrom _ _ => []
  | .close socket => closing socket
  | .unhook socket => [.unhook socket]

def opening (E : Example P) (role : Role) : List (Operation P) :=
  [.bindAddress (E.localAddress role),.connect (E.peerAddress role),
    .setRecvCallback (some .handleRead)] ++
  match role with
  | .client => [.send (some (E.createPacket pktSize)) 0]
  | .server => []

def ending : List (Operation P) := [.close,.setRecvCallback none]

def calls (E : Example P) (role : Role) : List (Operation P) := opening E role ++ ending

def doing (t : Thread P) : List (Call P) :=
  match t.phase with
  | some (.calling (.call l)) => todo l
  | some (.waiting l) => (todo l).tail
  | _ => []

def closes : SimulatorEvent → Option ℕ
  | .closeSocket socket => some socket
  | _ => none

def toClose (t : Thread P) : List ℕ := t.scheduled.filterMap fun e => closes e.2

def owes (E : Example P) (t : Thread P) (s : ℕ) : List (Operation P) :=
  ((doing t).filter fun k => k.socket = .helix s).map (Call.op E) ++
    if s ∈ toClose t then (closing s).map (Call.op E) else []

variable {c c' : System (platform P) M} {t t' : Thread P} {l : SystemLabel (platform P)}

inductive Effect (E : Example P) (t : Thread P) : SystemLabel (platform P) → Thread P → Prop
  | same {l : SystemLabel (platform P)} {t' : Thread P} (hl : ∀ s, called s l = none)
      (unnamed : ∀ r s, l ≠ (.createSocket r,.created s))
      (hdoing : doing t' = doing t) (hclose : (toClose t').Perm (toClose t)) : Effect E t l t'
  | does {t' : Thread P} (k : Call P) (g : ℕ) (seen : Seen (platform P) ℕ ℕ)
      (hk : k.socket = .helix g) (reads : Reads (k.op E) = false)
      (hdoing : doing t = k :: doing t') (hclose : toClose t' = toClose t) :
      Effect E t (.socket (.call k.socket (k.op E)),.socket seen) t'
  | closes {t' : Thread P} (g : ℕ) (seen : Seen (platform P) ℕ ℕ) (hdoing : doing t = [])
      (hdoing' : doing t' = [.unhook g]) (hclose : toClose t = g :: toClose t') :
      Effect E t (.socket (.call (.helix g) .close),.socket seen) t'
  | schedules {l : SystemLabel (platform P)} {t' : Thread P} (g : ℕ)
      (hl : ∀ s, called s l = none) (unnamed : ∀ r s, l ≠ (.createSocket r,.created s))
      (hdoing : doing t = closing g) (hdoing' : doing t' = [])
      (hclose : (toClose t').Perm (g :: toClose t)) : Effect E t l t'
  | creates {t' : Thread P} (f : ℕ) (role : Role) (s : ℕ) (hdoing : doing t = [])
      (hdoing' : doing t' = todo (.bind role s)) (hclose : toClose t' = toClose t) :
      Effect E t (.createSocket (.factory f),.created s) t'

theorem toClose_schedule (t : Thread P) (delay : ℕ) (e : SimulatorEvent) :
    (toClose (t.schedule delay e)).Perm ((closes e).toList ++ toClose t) := by
  have hperm := (t.scheduled.perm_orderedInsert (fun a b => a.1 < b.1) (t.now+delay,e)).filterMap
    fun e => closes e.2
  cases he : closes e with
  | none => simpa [toClose,Thread.schedule,he] using hperm
  | some g => simpa [toClose,Thread.schedule,he] using hperm

theorem called_helix (s g : ℕ) (o : Operation P) (seen : Seen (platform P) ℕ ℕ) :
    called s (.socket (.call (.helix g) o),.socket seen) =
      if g = s ∧ Reads o = false then some o else none := rfl

theorem called_reads {s : ℕ} {ref : SocketRef ℕ ℕ} {o : Operation P} (ho : Reads o = true)
    (seen : Seen (platform P) ℕ ℕ) : called s (.socket (.call ref o),.socket seen) = none := by
  cases ref with
  | helix g => rw [called_helix,ho,if_neg fun h => Bool.noConfusion h.2]
  | udp u => rfl

theorem aside_called (h : Aside l) (s : ℕ) : called s l = none := by
  cases h with
  | notify | callbackReturn | udp => rfl
  | recvFrom => exact called_reads rfl _

theorem call_effect (k : Call P) (due : Due t (.call k) t') (seen : Seen (platform P) ℕ ℕ) :
    Effect E t (.socket (.call k.socket (k.op E)),.socket seen)
      { t' with phase := some (.waiting k) } := by
  obtain ⟨ht,rfl⟩ | ⟨time,e,later,ht,hs,hk,rfl⟩ := due_inv due
  · have hdoing : doing t = todo k := by simp [doing,ht]
    cases k with
    | bind role g => exact .does _ g seen rfl rfl hdoing rfl
    | connect role g => exact .does _ g seen rfl rfl hdoing rfl
    | hook role g => exact .does _ g seen rfl rfl hdoing rfl
    | send g => exact .does _ g seen rfl rfl hdoing rfl
    | close g => exact .does _ g seen rfl rfl hdoing rfl
    | unhook g => exact .does _ g seen rfl rfl hdoing rfl
    | recvFrom ref fromAddress =>
      exact .same (fun s => called_reads rfl _) (fun r s => by simp) hdoing.symm .rfl
  · cases e with
    | createServerHelixSocket => cases hk
    | sendPacket => cases hk
    | closeSocket g =>
      obtain rfl := Point.call.inj hk
      exact .closes g seen (by simp [doing,ht]) rfl (by simp [toClose,hs,closes])

theorem returned_effect (k : Call P) (ht : t.phase = some (.waiting k))
    (v : (k.op E).ty.denote (platform P)) (r : SystemResult (platform P)) :
    Effect E t (.socket (.udp (.return ⟨_,v⟩)),r) (t.returned E k v) := by
  have hl : ∀ s, called s (.socket (.udp (.return ⟨_,v⟩)),r) = none := fun _ => rfl
  have unnamed : ∀ q s, (SystemEvent.socket (.udp (.return ⟨_,v⟩)),r) ≠
      (.createSocket q,.created s) := by simp
  have hdoing : doing t = (todo k).tail := by simp [doing,ht]
  cases k with
  | bind | connect | close | unhook => exact .same hl unnamed hdoing.symm .rfl
  | hook role g =>
    cases role with
    | server => exact .schedules g hl unnamed hdoing rfl (toClose_schedule t 10 _)
    | client => exact .same hl unnamed hdoing.symm .rfl
  | send g => exact .schedules g hl unnamed hdoing rfl (toClose_schedule t 10 _)
  | recvFrom ref fromAddress =>
    obtain ⟨packet,fromAddress'⟩ : Option P.Packet × P.Address := v
    cases packet <;> exact .same hl unnamed hdoing.symm .rfl

theorem thread_effect (h : ThreadStep E c t l t') : Effect E t l t' := by
  cases h with
  | aside hl =>
    refine .same (aside_called hl) ?_ rfl .rfl
    rintro r s rfl
    cases hl
  | install e _ ht => exact .same (fun _ => rfl) (by simp) rfl .rfl
  | createHelix _ ht | createHelix2 _ ht | addHelix _ _ ht =>
    exact .same (fun _ => rfl) (by simp) (by simp [doing,ht,Thread.proceed]) .rfl
  | addHelix2 helix2 ht =>
    refine .same (fun _ => rfl) (by simp) (by simp [doing,ht,Thread.proceed,Thread.schedule]) ?_
    exact (toClose_schedule _ 3 _).trans (toClose_schedule _ 1 _)
  | createSocket role due factory found socket =>
    obtain ⟨ht,rfl⟩ | ⟨time,e,later,ht,hs,he,rfl⟩ := due_inv due
    · exact .creates _ role socket (by simp [doing,ht]) rfl rfl
    · refine .creates _ role socket (by simp [doing,ht]) rfl ?_
      cases e with
      | createServerHelixSocket | sendPacket => simp [toClose,hs,closes,Thread.proceed]
      | closeSocket => cases he
  | refused => exact .same (fun _ => rfl) (by simp) rfl .rfl
  | call k due seen => exact call_effect k due seen
  | returned k ht v => exact returned_effect k ht v _
  | release socket due =>
    obtain ⟨ht,rfl⟩ | ⟨time,e,later,ht,hs,he,rfl⟩ := due_inv due
    · exact .same (fun _ => rfl) (by simp) (by simp [doing,ht,Thread.proceed]) .rfl
    · cases e <;> cases he

structure Orderly (t : Thread P) (n : ℕ) : Prop where
  nodup : (toClose t).Nodup
  apart : ∀ k ∈ doing t, ∀ g ∈ toClose t, k.socket ≠ .helix g
  doing : ∀ k ∈ doing t, ∀ g, k.socket = .helix g → g < n
  toClose : ∀ g ∈ toClose t, g < n

theorem orderly_initial : Orderly (.initial : Thread P) 0 where
  nodup := .nil
  apart k hk := by cases hk
  doing k hk := by cases hk
  toClose g hg := by cases hg

theorem bind_socket {role : Role} {g : ℕ} : ∀ k ∈ (todo (.bind role g) : List (Call P)),
    k.socket = .helix g := by
  cases role <;> simp [todo,sends,closing,Call.socket]

theorem effect_orderly {n n' : ℕ} (h : Orderly t n) (he : Effect E t l t') (hn : n ≤ n')
    (hnew : ∀ r s, l = (.createSocket r,.created s) → s = n ∧ n < n') : Orderly t' n' := by
  cases he with
  | same hl unnamed hdoing hclose =>
    refine ⟨hclose.nodup_iff.mpr h.nodup,?_,?_,fun g hg => ?_⟩
    · rw [hdoing]
      exact fun k hk g hg => h.apart k hk g (hclose.mem_iff.mp hg)
    · rw [hdoing]
      exact fun k hk g hg => Nat.lt_of_lt_of_le (h.doing k hk g hg) hn
    · exact Nat.lt_of_lt_of_le (h.toClose g (hclose.mem_iff.mp hg)) hn
  | does k g seen hk reads hdoing hclose =>
    have hmem : ∀ j ∈ doing t', j ∈ doing t := by
      rw [hdoing]
      exact fun j hj => List.mem_cons_of_mem _ hj
    refine ⟨by rw [hclose]; exact h.nodup,?_,?_,?_⟩
    · rw [hclose]
      exact fun j hj => h.apart j (hmem j hj)
    · exact fun j hj i hi => Nat.lt_of_lt_of_le (h.doing j (hmem j hj) i hi) hn
    · rw [hclose]
      exact fun i hi => Nat.lt_of_lt_of_le (h.toClose i hi) hn
  | closes g seen hdoing hdoing' hclose =>
    have hnodup := h.nodup
    rw [hclose] at hnodup
    obtain ⟨hfresh,hnodup'⟩ := List.nodup_cons.mp hnodup
    have hg : g < n' := Nat.lt_of_lt_of_le (h.toClose g (by rw [hclose]; simp)) hn
    refine ⟨hnodup',?_,?_,fun i hi => ?_⟩
    · rw [hdoing']
      intro j hj i hi
      obtain rfl := List.mem_singleton.mp hj
      intro hsame
      obtain rfl := SocketRef.helix.inj hsame
      exact hfresh hi
    · rw [hdoing']
      intro j hj i hi
      obtain rfl := List.mem_singleton.mp hj
      obtain rfl := SocketRef.helix.inj hi
      exact hg
    · exact Nat.lt_of_lt_of_le (h.toClose i (by rw [hclose]; exact List.mem_cons_of_mem _ hi)) hn
  | schedules g hl unnamed hdoing hdoing' hclose =>
    have hclosing : Call.close g ∈ doing t := by
      rw [hdoing]
      exact List.mem_cons_self
    have hfresh : g ∉ toClose t := fun hg => h.apart _ hclosing g hg rfl
    have hg : g < n' := Nat.lt_of_lt_of_le (h.doing _ hclosing g rfl) hn
    refine ⟨hclose.nodup_iff.mpr (List.nodup_cons.mpr ⟨hfresh,h.nodup⟩),?_,?_,fun i hi => ?_⟩
    · simp [hdoing']
    · simp [hdoing']
    · rcases List.mem_cons.mp (hclose.mem_iff.mp hi) with rfl | hi
      · exact hg
      · exact Nat.lt_of_lt_of_le (h.toClose i hi) hn
  | creates f role s hdoing hdoing' hclose =>
    obtain ⟨rfl,hlt⟩ := hnew _ s rfl
    refine ⟨by rw [hclose]; exact h.nodup,?_,?_,?_⟩
    · rw [hdoing',hclose]
      intro k hk g hg hsame
      obtain rfl := SocketRef.helix.inj ((bind_socket k hk).symm.trans hsame)
      exact Nat.lt_irrefl _ (h.toClose _ hg)
    · rw [hdoing']
      intro k hk g hsame
      obtain rfl := SocketRef.helix.inj ((bind_socket k hk).symm.trans hsame)
      exact hlt
    · rw [hclose]
      exact fun g hg => Nat.lt_of_lt_of_le (h.toClose g hg) hn

/-- On a socket that is not made by the step, what is called is what was owed
first. -/
theorem effect_owes {n : ℕ} (h : Orderly t n) (he : Effect E t l t') {s : ℕ}
    (hs : ∀ r, l ≠ (.createSocket r,.created s)) :
    owes E t s = (called s l).toList ++ owes E t' s := by
  cases he with
  | same hl unnamed hdoing hclose =>
    have hmem : s ∈ toClose t' ↔ s ∈ toClose t := hclose.mem_iff
    rw [hl,owes,owes,hdoing,if_congr hmem rfl rfl]
    rfl
  | does k g seen hk reads hdoing hclose =>
    rw [owes,owes,hdoing,hclose,hk,called_helix]
    by_cases hg : g = s
    · subst hg
      simp [hk,reads]
    · simp [hk,hg]
  | closes g seen hdoing hdoing' hclose =>
    have hnodup := h.nodup
    rw [hclose] at hnodup
    have hfresh := (List.nodup_cons.mp hnodup).1
    rw [owes,owes,hdoing,hdoing',hclose,called_helix]
    by_cases hg : g = s
    · subst hg
      simp [hfresh,closing,Reads,Call.socket]
    · simp [hg,Call.socket,Ne.symm hg]
  | schedules g hl unnamed hdoing hdoing' hclose =>
    have hclosing : Call.close g ∈ doing t := by
      rw [hdoing]
      exact List.mem_cons_self
    have hfresh : g ∉ toClose t := fun hg => h.apart _ hclosing g hg rfl
    rw [hl,owes,owes,hdoing,hdoing',if_congr hclose.mem_iff rfl rfl]
    by_cases hg : g = s
    · subst hg
      simp [hfresh,closing,Call.socket]
    · simp [hg,closing,Call.socket,Ne.symm hg]
  | creates f role g hdoing hdoing' hclose =>
    have hg : g ≠ s := by
      rintro rfl
      exact hs _ rfl
    have hnone : (todo (.bind role g : Call P)).filter (fun k => k.socket = .helix s) = [] := by
      refine List.filter_eq_nil_iff.mpr fun k hk => ?_
      simp [bind_socket k hk,hg]
    rw [owes,owes,hdoing,hdoing',hclose,hnone]
    rfl

theorem owes_unborn {n s : ℕ} (h : Orderly t n) (hs : n ≤ s) : owes E t s = [] := by
  have hfresh : s ∉ toClose t := fun hm => Nat.not_lt.mpr hs (h.toClose s hm)
  have hnone : (doing t).filter (fun k => k.socket = .helix s) = [] := by
    refine List.filter_eq_nil_iff.mpr fun k hk hsame => ?_
    exact Nat.not_lt.mpr hs (h.doing k hk s (of_decide_eq_true hsame))
  rw [owes,hnone,if_neg hfresh]
  rfl

theorem owes_new {n s : ℕ} {role : Role} {t'' : Thread P} (h : Orderly t n) (hs : n ≤ s)
    (due : Due t (.createSocket role) t'') :
    owes E (t''.proceed (some (.call (.bind role s)))) s = calls E role := by
  have hclose : s ∉ toClose (t''.proceed (some (.call (.bind role s)))) := by
    refine fun hm => Nat.not_lt.mpr hs (h.toClose s ?_)
    obtain ⟨ht,rfl⟩ | ⟨time,e,later,ht,hscheduled,he,rfl⟩ := due_inv due
    · exact hm
    · rw [toClose,hscheduled]
      exact List.mem_filterMap.mpr (by
        obtain ⟨x,hx,hs⟩ := List.mem_filterMap.mp hm
        exact ⟨x,List.mem_cons_of_mem _ hx,hs⟩)
  rw [owes,if_neg hclose]
  cases role <;>
    simp [doing,Thread.proceed,todo,sends,closing,Call.socket,calls,opening,ending]

end Owing

section Lives

variable {c c' : System (platform P) M} {t t' : Thread P} {l : SystemLabel (platform P)}
  {ls : List (SystemLabel (platform P))}

theorem calledOn_snoc (s : ℕ) (ls : List (SystemLabel (platform P)))
    (l : SystemLabel (platform P)) :
    calledOn s (ls++[l]) = calledOn s ls ++ (called s l).toList := by
  cases h : called s l <;> simp [calledOn,h]

/-- What was called on a socket and what is owed make up its life. -/
structure Life (E : Example P) (ls : List (SystemLabel (platform P)))
    (c : System (platform P) M) (t : Thread P) : Prop where
  orderly : Orderly t c.nextSocket
  unborn : ∀ s, c.nextSocket ≤ s → calledOn s ls = []
  whole : ∀ s role, s < c.nextSocket → roles[s]? = some role →
    calledOn s ls ++ owes E t s = calls E role
  opened : ∀ s role, s+1 < c.nextSocket → roles[s]? = some role →
    opening E role <+: calledOn s ls

theorem life_initial : Life E [] (.initial M) .initial where
  orderly := orderly_initial
  unborn _ _ := rfl
  whole s _ hs := absurd hs (Nat.not_lt_zero s)
  opened _ _ hs := absurd hs (Nat.not_lt_zero _)

/-- When nothing is being done, at most the ending of a life is missing. -/
theorem life_opened (h : Life E ls c t) (hidle : doing t = []) {s : ℕ} {role : Role}
    (hs : s < c.nextSocket) (hrole : roles[s]? = some role) :
    opening E role <+: calledOn s ls := by
  have hwhole := h.whole s role hs hrole
  rw [owes,hidle,calls] at hwhole
  by_cases hclose : s ∈ toClose t
  · rw [if_pos hclose] at hwhole
    have hcalled : calledOn s ls = opening E role := List.append_cancel_right hwhole
    rw [hcalled]
  · rw [if_neg hclose] at hwhole
    have hcalled : calledOn s ls = opening E role ++ ending := by simpa using hwhole
    rw [hcalled]
    exact List.prefix_append _ _

theorem life_same (h : Life E ls c t) (hstep : Step c l c') (he : Effect E t l t')
    (hl : ∀ r s, l ≠ (.createSocket r,.created s)) : Life E (ls++[l]) c' t' := by
  have hnext := next_same hstep hl
  have howes := fun s => effect_owes (s := s) h.orderly he fun r => hl r s
  have horderly : Orderly t' c'.nextSocket :=
    effect_orderly h.orderly he (Nat.le_of_eq hnext.symm) fun r s hs => absurd hs (hl r s)
  refine ⟨horderly,fun s hs => ?_,fun s role hs hrole => ?_,fun s role hs hrole => ?_⟩
  · rw [hnext] at hs
    have hnone := (howes s).symm.trans (owes_unborn h.orderly hs)
    rw [calledOn_snoc,h.unborn s hs,(List.append_eq_nil_iff.mp hnone).1]
    rfl
  · rw [hnext] at hs
    rw [calledOn_snoc,List.append_assoc,← howes s]
    exact h.whole s role hs hrole
  · rw [hnext] at hs
    rw [calledOn_snoc]
    exact (h.opened s role hs hrole).trans (List.prefix_append _ _)

theorem doing_created {r : Creator} {s : ℕ} (he : Effect E t (.createSocket r,.created s) t') :
    doing t = [] := by
  cases he with
  | same hl unnamed => exact absurd rfl (unnamed r s)
  | schedules g hl unnamed => exact absurd rfl (unnamed r s)
  | creates f role _ hdoing => exact hdoing

theorem life_created (h : Life E ls c t) (hm : Making t c.nextSocket) {r : Creator} {s : ℕ}
    (hstep : Step c (.createSocket r,.created s) c')
    (hthread : ThreadStep E c t (.createSocket r,.created s) t') :
    Life E (ls++[(.createSocket r,.created s)]) c' t' := by
  obtain ⟨rfl,hnext⟩ := created_next hstep
  have he := thread_effect hthread
  obtain ⟨role,f,t'',due,hrole,rfl,found,rfl,making⟩ := creates_making hm hthread
  have uncalled : ∀ g, calledOn g (ls++[(.createSocket (.factory f),.created c.nextSocket)]) =
      calledOn g ls := by
    intro g
    rw [calledOn_snoc]
    exact List.append_nil _
  refine ⟨effect_orderly h.orderly he (by omega) ?_,fun g hg => ?_,fun g role' hg hrole' => ?_,
    fun g role' hg hrole' => ?_⟩
  · intro r' s' hs
    obtain ⟨_,hs⟩ := Prod.mk.inj hs
    exact ⟨(SystemResult.created.inj hs).symm,by omega⟩
  · rw [uncalled]
    exact h.unborn g (by omega)
  · rw [uncalled]
    by_cases hnew : g = c.nextSocket
    · subst hnew
      obtain rfl : role = role' := Option.some.inj (hrole.symm.trans hrole')
      rw [h.unborn _ (Nat.le_refl _)]
      exact owes_new h.orderly (Nat.le_refl _) due
    · rw [← h.whole g role' (by omega) hrole',effect_owes h.orderly he (s := g) ?_]
      · rfl
      · intro r' hs
        obtain ⟨_,hs⟩ := Prod.mk.inj hs
        exact hnew (SystemResult.created.inj hs).symm
  · rw [uncalled]
    exact life_opened h (doing_created he) (by omega) hrole'

theorem step_life (h : Life E ls c t) (hm : Making t c.nextSocket) (hstep : Step c l c')
    (hthread : ThreadStep E c t l t') : Life E (ls++[l]) c' t' := by
  by_cases hl : ∀ r s, l ≠ (.createSocket r,.created s)
  · exact life_same h hstep (thread_effect hthread) hl
  · push Not at hl
    obtain ⟨r,s,rfl⟩ := hl
    exact life_created h hm hstep hthread

theorem run_life {tr : List ((System (platform P) M × Thread P) × SystemLabel (platform P))}
    {x : System (platform P) M × Thread P} (hrun : Run (Threaded E M) (.initial M,.initial) tr x) :
    Life E (labels tr) x.1 x.2 := by
  induction hrun with
  | nil => exact life_initial
  | snoc run last ih =>
    rw [labels_append]
    exact step_life ih (run_setUp run).2.1 last.1 last.2

end Lives

section Playing

variable {E : Example P} {x₀ : System (platform P) arbitrary × Process P}
  {tr : List ((System (platform P) arbitrary × Process P) × SystemLabel (platform P))}

theorem call_answered {c : System (platform P) arbitrary} {p q : Process P} {k : Call P} {g : ℕ}
    (h : Run (Joint E arbitrary) x₀ tr (c,p)) (v : (k.op E).ty.denote (platform P))
    {d d' : Config (platform P) ℕ ℕ arbitrary} (hp : HelixExample.Ready p (.call k) none q)
    (hq : q.functions = []) (idle : c.Idle) (hk : k.socket = .helix g) (held : g ∈ c.held)
    (hcall : c.sockets.exec (.call (.helix g) (k.op E)) = some (d,.nothing))
    (hret : d.exec (.udp (.return ⟨_,v⟩)) = some (d',.returned (.helix g) ⟨_,v⟩)) :
    ∃ tr', Run (Joint E arbitrary) x₀ tr' ({ c with sockets := d' },
      { q with functions := [⟨none,.waiting k⟩] }.returned E none [] k v) := by
  have hcalled : Step c (.socket (.call k.socket (k.op E)),.socket .nothing)
      { c with sockets := d } := by
    rw [hk]
    exact .socket idle (.inl held) ⟨trivial,(),rfl,hcall⟩
  have waiting := beside_then h _ hcalled (.call k none hp .nothing trivial)
  have hreturned : Step { c with sockets := d }
      (.socket (.udp (.return ⟨_,v⟩)),.socket (.returned k.socket ⟨_,v⟩))
      { c with sockets := d' } := by
    rw [hk]
    exact .socket ⟨idle.alive,idle.tasks,idle.undisposed⟩ trivial ⟨trivial,(),trivial,hret⟩
  have returned := beside_then waiting _ hreturned (.returned none k q.functions rfl v)
  rw [hq] at returned
  exact ⟨_,returned⟩

/-- The packet is sent and the server's socket is closed. Then a packet may
arrive there, and the example may come to its end. -/
theorem echo_runs : (∃ tr x y, Run (Joint twoNodes arbitrary) (.initial arbitrary,.initial) tr x ∧
      x.1.nextSocket = 2 ∧ Joint twoNodes arbitrary x
        (.socket (.udp (.raise 0 .recv)),.socket (.crashed .nullCallback)) y) ∧
    ∃ tr x, Run (Joint twoNodes arbitrary) (.initial arbitrary,.initial) tr x ∧
      x.2.functions = [] ∧ x.2.scheduled = [] := by
  obtain ⟨tr,w,wired,halive,htasks⟩ := main_runs
  obtain ⟨_,p,n,_,hserver⟩ := socket_makes wired .server
    (.begin (e := .createServerHelixSocket) rfl rfl) htasks rfl
  have server := run_then wired _ hserver
  have idle : ∀ c : System (platform .unit) arbitrary, c.wiring.aborted = w.aborted →
      c.wiring.tasks = w.tasks → c.disposed = [] → c.Idle :=
    fun c ha ht hd => ⟨ha.trans halive,ht.trans htasks,hd⟩
  obtain ⟨_,bound⟩ := call_answered server (0 : Int32) (.calling rfl) rfl (idle _ rfl rfl rfl) rfl
    List.mem_cons_self rfl rfl
  obtain ⟨_,connected⟩ := call_answered bound (0 : Int32) (.calling rfl) rfl
    (idle _ rfl rfl rfl) rfl List.mem_cons_self rfl rfl
  obtain ⟨_,hooked⟩ := call_answered connected () (.calling rfl) rfl (idle _ rfl rfl rfl) rfl
    List.mem_cons_self rfl rfl
  obtain ⟨_,p',n',_,hclient⟩ := socket_makes hooked .client
    (.begin (e := .sendPacket) rfl rfl) htasks rfl
  have client := run_then hooked _ hclient
  obtain ⟨_,bound'⟩ := call_answered client (0 : Int32) (.calling rfl) rfl (idle _ rfl rfl rfl) rfl
    List.mem_cons_self rfl rfl
  obtain ⟨_,connected'⟩ := call_answered bound' (0 : Int32) (.calling rfl) rfl
    (idle _ rfl rfl rfl) rfl List.mem_cons_self rfl rfl
  obtain ⟨_,hooked'⟩ := call_answered connected' () (.calling rfl) rfl (idle _ rfl rfl rfl) rfl
    List.mem_cons_self rfl rfl
  obtain ⟨_,sent⟩ := call_answered hooked' (10 : Int32) (.calling rfl) rfl (idle _ rfl rfl rfl) rfl
    List.mem_cons_self rfl rfl
  have held : 0 ∈ [1,0] := by decide
  obtain ⟨_,closed⟩ := call_answered sent (0 : Int32) (.begin (e := .closeSocket 0) rfl rfl) rfl
    (idle _ rfl rfl rfl) rfl held rfl rfl
  obtain ⟨_,unhooked⟩ := call_answered closed () (.calling rfl) rfl (idle _ rfl rfl rfl) rfl
    held rfl rfl
  refine ⟨?_,?_⟩
  · have woken := beside_then unhooked (.socket (.udp .wake),.socket .nothing)
      (.socket (idle _ rfl rfl rfl) trivial ⟨trivial,(),trivial,rfl⟩) (.udp .wake .nothing trivial)
    exact ⟨_,_,(_,_),woken,rfl,.socket (idle _ rfl rfl rfl) trivial ⟨trivial,(),trivial,rfl⟩,
      .udp _ _ trivial⟩
  · have released := beside_then unhooked _ (.drop (idle _ rfl rfl rfl) rfl held)
      (.release 0 none (.calling rfl))
    have held' : 1 ∈ [1] := by decide
    obtain ⟨_,closed'⟩ := call_answered released (0 : Int32) (.begin (e := .closeSocket 1) rfl rfl)
      rfl (idle _ rfl rfl rfl) rfl held' rfl rfl
    obtain ⟨_,unhooked'⟩ := call_answered closed' () (.calling rfl) rfl (idle _ rfl rfl rfl) rfl
      held' rfl rfl
    have ended := beside_then unhooked' _ (.drop (idle _ rfl rfl rfl) rfl held')
      (.release 1 none (.calling rfl))
    exact ⟨_,_,ended,rfl,rfl⟩

end Playing

section Example

variable {tr : List ((System (platform P) M × Process P) × SystemLabel (platform P))}
  {x y : System (platform P) M × Process P}

theorem joint_lives (hrun : Run (Joint E M) (.initial M,.initial) tr x) :
    ∃ t, Life E (labels tr) x.1 t ∧ Placed E x.1 := by
  obtain ⟨tr',t,hrun',hleft,_⟩ := run_thread hrun
  have hlabels : labels tr' = labels tr := by rw [← labels_onLeft,hleft,labels_onLeft]
  exact ⟨t,hlabels ▸ run_life hrun',(run_setUp hrun').2.2⟩

theorem socket_lives (hrun : Run (Joint E M) (.initial M,.initial) tr x) {s : ℕ}
    (hs : s < x.1.nextSocket) : ∃ role, roles[s]? = some role ∧
      (x.1.sockets.socket s).mNode = some (E.node role) ∧
      calledOn s (labels tr) <+: calls E role := by
  obtain ⟨t,life,placed⟩ := joint_lives hrun
  obtain ⟨role,p,hrole,hbelongs⟩ := placed s hs
  refine ⟨role,hrole,hbelongs.node,?_⟩
  rw [← life.whole s role hs hrole]
  exact List.prefix_append _ _

/-- Whatever the UDP layer raises and whenever it does, at most two sockets are
made. Each is used as its role says, in this order, with no call left out or
made twice; and the client's is only made when the server's has been bound,
connected and hooked. -/
theorem calls_in_order (hrun : Run (Joint E M) (.initial M,.initial) tr x) {s : ℕ}
    (hs : s < x.1.nextSocket) : ∃ role, [Role.server,.client][s]? = some role ∧
      (x.1.sockets.socket s).mNode = some (E.node role) ∧
      calledOn s (labels tr) <+: calls E role ∧
      (s+1 < x.1.nextSocket → opening E role <+: calledOn s (labels tr)) := by
  obtain ⟨role,hrole,hnode,hcalled⟩ := socket_lives hrun hs
  obtain ⟨t,life,_⟩ := joint_lives hrun
  exact ⟨role,hrole,hnode,hcalled,fun hlast => life.opened s role hlast hrole⟩

/-- Both sockets are made and used. -/
theorem both_in_order : ∃ tr x, Run (Joint twoNodes arbitrary) (.initial arbitrary,.initial) tr x ∧
    opening twoNodes .server <+: calledOn 0 (labels tr) ∧
    (x.1.sockets.socket 1).mNode = some (twoNodes.node .client) ∧
    calledOn 1 (labels tr) <+: calls twoNodes .client := by
  obtain ⟨⟨tr,x,_,hrun,hnext,_⟩,_⟩ := echo_runs
  obtain ⟨role,hrole,_,_,hopened⟩ := calls_in_order hrun (s := 0) (by omega)
  obtain rfl : Role.server = role := Option.some.inj hrole
  obtain ⟨role,hrole,hnode,hcalled,_⟩ := calls_in_order hrun (s := 1) (by omega)
  obtain rfl : Role.client = role := Option.some.inj hrole
  exact ⟨tr,x,hrun,hopened (by omega),hnode,hcalled⟩

end Example

section Crashes

theorem operate_alike {H H' : History (platform P)} (h : H.recv = H'.recv ∧ H.send = H'.send)
    (o : Operation P) :
    (H.operate o).recv = (H'.operate o).recv ∧ (H.operate o).send = (H'.operate o).send := by
  cases o <;> simp [History.operate,h]

theorem record_alike {H H' : History (platform P)} (h : H.recv = H'.recv ∧ H.send = H'.send)
    (s : ℕ) (a : Action (platform P) ℕ ℕ) (seen : Seen (platform P) ℕ ℕ) :
    let G := (called s (.socket a,.socket seen)).toList.foldl History.operate H'
    (H.record s a).recv = G.recv ∧ (H.record s a).send = G.send := by
  cases a with
  | callbackReturn => exact h
  | udp move => exact h
  | inherited ref i =>
    cases ref with
    | udp u => exact h
    | helix g =>
      by_cases hg : g = s
      · simpa [History.record,hg,called,History.inherit] using h
      · simpa [History.record,hg,called] using h
  | call ref o =>
    cases ref with
    | udp u => exact h
    | helix g =>
      rw [called_helix]
      by_cases hg : g = s
      · cases o with
        | recvFrom maxSize flags fromAddress =>
          simpa [History.record,hg,Reads,History.operate] using h
        | _ => simpa [History.record,hg,Reads] using operate_alike h _
      · simpa [History.record,hg] using h

/-- What is registered on a socket was registered by the calls on it. -/
theorem calledOn_registered (s : ℕ) (ls : List (SystemLabel (platform P))) :
    let H := history s (ls.filterMap socketLabel)
    let G := (calledOn s ls).foldl History.operate .empty
    H.recv = G.recv ∧ H.send = G.send := by
  induction ls using List.reverseRecOn with
  | nil => exact ⟨rfl,rfl⟩
  | append_singleton ls l ih =>
    have other (hlabel : socketLabel l = none) (hcalled : called s l = none) :
        (ls++[l]).filterMap socketLabel = ls.filterMap socketLabel ∧
          calledOn s (ls++[l]) = calledOn s ls := by
      rw [List.filterMap_append,List.filterMap_cons_none hlabel,calledOn_snoc,hcalled]
      exact ⟨List.append_nil _,List.append_nil _⟩
    obtain ⟨e,r⟩ := l
    cases e with
    | socket a =>
      cases r with
      | socket seen =>
        rw [calledOn_snoc,List.foldl_append,List.filterMap_append]
        rw [show [(SystemEvent.socket a,SystemResult.socket seen)].filterMap socketLabel =
          [(a,seen)] from rfl,history_snoc]
        exact record_alike ih s a seen
      | nothing | created | aborted =>
        obtain ⟨hlabels,hcalled⟩ := other rfl (by simp [called])
        rw [hlabels,hcalled]
        exact ih
    | stack | createSocket | createUdpSocket | drop | dispose =>
      obtain ⟨hlabels,hcalled⟩ := other rfl rfl
      rw [hlabels,hcalled]
      exact ih

theorem nonNull_registered (os : List (Operation P)) (h : ∀ o ∈ os, o.NonNull) :
    let G := os.foldl History.operate (.empty : History (platform P))
    G.recv ≠ some none ∧ G.send ≠ some none := by
  induction os using List.reverseRecOn with
  | nil => simp [History.empty]
  | append_singleton os o ih =>
    have hlast := h o (by simp)
    have hbefore := ih fun o' ho' => h o' (by simp [ho'])
    rw [List.foldl_append]
    cases o with
    | setRecvCallback cb =>
      refine ⟨?_,hbefore.2⟩
      rintro hnull
      obtain rfl := Option.some.inj hnull
      cases hlast
    | setSendCallback cb =>
      refine ⟨hbefore.1,?_⟩
      rintro hnull
      obtain rfl := Option.some.inj hnull
      cases hlast
    | _ => exact hbefore

theorem calls_nonNull (E : Example P) (role : Role) :
    ∀ o ∈ opening E role ++ [.close], o.NonNull := by
  cases role <;> simp [opening,Op.NonNull]

/-- A null callback is in force exactly on a socket whose life is over, and for
receive events. -/
theorem deregistered_iff {s : ℕ} {ls : List (SystemLabel (platform P))} {role : Role}
    (h : calledOn s ls <+: calls E role) (e : Event) :
    Deregistered s (ls.filterMap socketLabel) e ↔ e = .recv ∧ calledOn s ls = calls E role := by
  obtain ⟨hrecv,hsend⟩ := calledOn_registered s ls
  have hcalls : calls E role = (opening E role ++ [.close]) ++ [.setRecvCallback none] := by
    simp [calls,ending]
  have hbefore := nonNull_registered _ (calls_nonNull E role)
  have hprefix := h
  rw [hcalls,List.prefix_concat_iff] at hprefix
  obtain hover | hgoing := hprefix
  · rw [hover,List.foldl_append] at hrecv hsend
    rw [hcalls,hover]
    cases e with
    | recv => exact iff_of_true hrecv ⟨rfl,rfl⟩
    | send n => exact iff_of_false (fun hd => hbefore.2 (hsend.symm.trans hd)) (by simp)
    | _ => exact iff_of_false (fun hd => by cases hd) (by simp)
  · have hnull := nonNull_registered (calledOn s ls) fun o ho =>
      calls_nonNull E role o (hgoing.subset ho)
    have hgoing' : calledOn s ls ≠ calls E role := by
      intro hover
      rw [hover,hcalls] at hgoing
      have hle := hgoing.length_le
      simp at hle
    refine iff_of_false (fun hd => ?_) fun hover => hgoing' hover.2
    cases e with
    | recv => exact hnull.1 (hrecv.symm.trans hd)
    | send n => exact hnull.2 (hsend.symm.trans hd)
    | _ => cases hd

/-- What crashes in the example is a packet that arrives on a socket after
`closeSocket` has closed it and taken its callback away, and every such packet
does. -/
theorem closed_socket_crashes
    {tr : List ((System (platform P) M × Process P) × SystemLabel (platform P))}
    {x y : System (platform P) M × Process P}
    (hrun : Run (Joint E M) (.initial M,.initial) tr x) {a : Action (platform P) ℕ ℕ}
    {seen : Seen (platform P) ℕ ℕ} (hstep : Joint E M x (.socket a,.socket seen) y) :
    (∃ k, seen = .crashed k) ↔ ∃ s u role, a = .udp (.raise u .recv) ∧
      (x.1.sockets.socket s).mUdpSocket = some u ∧
      (x.1.sockets.socket s).mNode = some (E.node role) ∧
      calledOn s (labels tr) = calls E role := by
  have hsystem := beside_left hrun
  have hlabels : socketLabels (onLeft tr) = (labels tr).filterMap socketLabel := by
    rw [socketLabels,labels_onLeft]
  have life : ∀ {s u}, (x.1.sockets.socket s).mUdpSocket = some u → ∃ role,
      (x.1.sockets.socket s).mNode = some (E.node role) ∧
      calledOn s (labels tr) <+: calls E role := by
    intro s u hu
    have hs := ((run_paired hsystem).wrapped s).mp (Option.isSome_iff_exists.mpr ⟨u,hu⟩)
    obtain ⟨role,_,hlife⟩ := socket_lives hrun hs
    exact ⟨role,hlife⟩
  rw [step_crash_iff hsystem hstep.1,hlabels]
  constructor
  · rintro ⟨u,e,s,rfl,hu,hd⟩
    obtain ⟨role,hnode,hcalled⟩ := life hu
    obtain ⟨rfl,hover⟩ := (deregistered_iff hcalled e).mp hd
    exact ⟨s,u,role,rfl,hu,hnode,hover⟩
  · rintro ⟨s,u,role,rfl,hu,hnode,hover⟩
    have hcalled : calledOn s (labels tr) <+: calls E role := by rw [hover]
    exact ⟨u,.recv,s,rfl,hu,(deregistered_iff hcalled .recv).mpr ⟨rfl,hover⟩⟩

/-- The example can get to such a packet. -/
theorem late_packet_crashes : ∃ tr x y,
    Run (Joint twoNodes arbitrary) (.initial arbitrary,.initial) tr x ∧
    Joint twoNodes arbitrary x
      (.socket (.udp (.raise 0 .recv)),.socket (.crashed .nullCallback)) y ∧
    ∃ s role, (x.1.sockets.socket s).mUdpSocket = some 0 ∧
      calledOn s (labels tr) = calls twoNodes role := by
  obtain ⟨⟨tr,x,y,hrun,_,hstep⟩,_⟩ := echo_runs
  obtain ⟨s,u,role,ha,hu,_,hover⟩ := (closed_socket_crashes hrun hstep).mp ⟨_,rfl⟩
  cases ha
  exact ⟨tr,x,y,hrun,hstep,s,role,hu,hover⟩

end Crashes

end Ns3Helix.ExampleCalls
