import Ns3Helix.ExampleThread

/-!
# The order in which the sockets are made

`main` schedules two functions that make a socket each, and nothing else does.
The server's is due first. What is scheduled later closes a socket.
-/

set_option autoImplicit false

namespace Ns3Helix.ExampleSchedule
open Ns3Helix.SocketInterface Ns3Helix.SocketMachine Ns3Helix.HelixSystem
open Ns3Helix.HelixExample Ns3Helix.ExampleThread

variable {P : Platform} {M : UdpMachine (platform P) ℕ} {E : Example P}

def Main : Point P → Prop
  | .createHelix => True
  | .createHelix2 _ => True
  | .addHelix _ _ => True
  | .addHelix2 _ => True
  | _ => False

def OnSocket : Point P → Prop
  | .call _ => True
  | .release _ => True
  | _ => False

theorem onSocket_main {l : Point P} (h : OnSocket l) : ¬ Main l := by
  cases l with
  | call | release => exact id
  | createSocket | createHelix | createHelix2 | addHelix | addHelix2 => cases h

theorem resume_onSocket (k : Call P) (v : (k.op E).ty.denote (platform P)) {l : Point P}
    (h : k.resume E v = some l) : OnSocket l := by
  cases k with
  | bind | connect | close | unhook =>
    obtain rfl := Option.some.inj h
    trivial
  | hook role socket =>
    cases role with
    | server => cases h
    | client =>
      obtain rfl := Option.some.inj h
      trivial
  | send => cases h
  | recvFrom socket fromAddress =>
    obtain ⟨packet,fromAddress'⟩ : Option P.Packet × P.Address := v
    cases packet with
    | some packet =>
      obtain rfl := Option.some.inj h
      trivial
    | none => cases h

def roles : List Role := [.server,.client]

def creates : SimulatorEvent → Option Role
  | .createServerHelixSocket => some .server
  | .sendPacket => some .client
  | .closeSocket _ => none

def toCreate (t : Thread P) : List Role := t.scheduled.filterMap fun e => creates e.2

theorem start_creates {e : SimulatorEvent} {role : Role}
    (h : (e.start : Point P) = .createSocket role) : creates e = some role := by
  cases e with
  | createServerHelixSocket | sendPacket =>
    obtain rfl := Point.createSocket.inj h
    rfl
  | closeSocket => cases h

theorem start_closes {e : SimulatorEvent} {l : Point P} (h : e.start = l) (hl : OnSocket l) :
    creates e = none := by
  subst h
  cases e with
  | createServerHelixSocket | sendPacket => cases hl
  | closeSocket => rfl

theorem toCreate_schedule (t : Thread P) (delay : ℕ) {e : SimulatorEvent}
    (he : creates e = none) : toCreate (t.schedule delay e) = toCreate t := by
  rw [toCreate,Thread.schedule,List.orderedInsert_eq_take_drop]
  simp only [List.filterMap_append,List.filterMap_cons,he]
  rw [← List.filterMap_append,List.takeWhile_append_dropWhile]
  rfl

theorem toCreate_returned (t : Thread P) (k : Call P) (v : (k.op E).ty.denote (platform P)) :
    toCreate (t.returned E k v) = toCreate t := by
  cases k with
  | bind | connect | recvFrom | close | unhook => rfl
  | hook role socket =>
    cases role with
    | server => exact toCreate_schedule t 10 rfl
    | client => rfl
  | send socket => exact toCreate_schedule t 10 rfl

inductive Making (t : Thread P) (n : ℕ) : Prop
  | setUp (l : Point P) (ht : t.phase = some (.calling l)) (main : Main l)
      (hs : t.scheduled = []) (hn : n = 0)
  | running (point : ∀ l, t.phase = some (.calling l) → OnSocket l)
      (later : toCreate t = roles.drop n)

variable {c : System (platform P) M} {t t' : Thread P} {l : SystemLabel (platform P)} {n : ℕ}

theorem making_initial : Making (.initial : Thread P) 0 := .setUp _ rfl trivial rfl rfl

theorem making_main (h : Making t n) {l : Point P} (ht : t.phase = some (.calling l))
    (hl : Main l) : t.scheduled = [] ∧ n = 0 := by
  cases h with
  | setUp l' ht' main hs hn => exact ⟨hs,hn⟩
  | running point => exact absurd hl (onSocket_main (point l ht))

theorem making_proceed (h : Making t n) {l l' : Point P} (ht : t.phase = some (.calling l))
    (hl : Main l) (hl' : Main l') : Making (t.proceed (some l')) n := by
  obtain ⟨hs,hn⟩ := making_main h ht hl
  exact .setUp l' rfl hl' hs hn

theorem making_waiting (h : Making t n) {k : Call P} (ht : t.phase = some (.waiting k)) :
    toCreate t = roles.drop n := by
  cases h with
  | setUp l ht' => cases ht.symm.trans ht'
  | running point later => exact later

theorem making_due (h : Making t n) {l : Point P} (due : Due t l t') (hl : OnSocket l) :
    toCreate t' = roles.drop n := by
  obtain ⟨ht,rfl⟩ | ⟨time,e,later,ht,hs,he,rfl⟩ := due_inv due
  · cases h with
    | setUp l' ht' main =>
      obtain rfl : l = l' := by simpa using ht.symm.trans ht'
      exact absurd main (onSocket_main hl)
    | running point later => exact later
  · cases h with
    | setUp l' ht' => cases ht.symm.trans ht'
    | running point later' =>
      rw [← later']
      simp [toCreate,hs,start_closes he.symm hl]

/-- A socket is asked for by the function that is due. -/
theorem making_create (h : Making t n) {role : Role} (due : Due t (.createSocket role) t') :
    roles[n]? = some role ∧ toCreate t' = roles.drop (n+1) := by
  obtain ⟨ht,rfl⟩ | ⟨time,e,later,ht,hs,he,rfl⟩ := due_inv due
  · cases h with
    | setUp l' ht' main =>
      obtain rfl : .createSocket role = l' := by simpa using ht.symm.trans ht'
      cases main
    | running point => cases point _ ht
  · cases h with
    | setUp l' ht' => cases ht.symm.trans ht'
    | running point later' =>
      have hnext : role :: later.filterMap (fun e => creates e.2) = roles.drop n := by
        rw [← later']
        simp [toCreate,hs,start_creates he.symm]
      refine ⟨?_,?_⟩
      · rw [← List.head?_drop,← hnext]
        rfl
      · rw [← List.tail_drop,← hnext]
        rfl

theorem keeps_making (h : Making t n) (hstep : ThreadStep E c t l t')
    (hl : ∀ r s, l ≠ (.createSocket r,.created s)) : Making t' n := by
  cases hstep with
  | aside | install | refused => exact h
  | createHelix _ ht => exact making_proceed h ht trivial trivial
  | createHelix2 _ ht => exact making_proceed h ht trivial trivial
  | addHelix _ _ ht => exact making_proceed h ht trivial trivial
  | addHelix2 helix2 ht =>
    obtain ⟨hs,rfl⟩ := making_main h ht trivial
    refine .running (fun k hk => by cases hk) ?_
    simp [toCreate,Thread.schedule,Thread.proceed,hs,creates,roles]
  | createSocket => exact absurd rfl (hl _ _)
  | call k due seen =>
    have hlater := making_due h due trivial
    exact .running (fun p hp => by cases hp) hlater
  | returned k ht v =>
    refine .running (fun p hp => ?_) ?_
    · obtain ⟨p',hp',hk⟩ := Option.map_eq_some_iff.mp hp
      obtain rfl := FunctionStack.Phase.calling.inj hk
      exact resume_onSocket k v hp'
    · rw [toCreate_returned]
      exact making_waiting h ht
  | release socket due =>
    have hlater := making_due h due trivial
    exact .running (fun p hp => by cases hp) hlater

theorem creates_making (h : Making t n) {r : Creator} {s : ℕ}
    (hstep : ThreadStep E c t (.createSocket r,.created s) t') : ∃ role f t'',
      Due t (.createSocket role) t'' ∧ roles[n]? = some role ∧ r = .factory f ∧
      c.getObject (E.node role) .helixSocketFactory = some f ∧
      t' = t''.proceed (some (.call (.bind role s))) ∧ Making t' (n+1) := by
  cases hstep with
  | aside haside => cases haside
  | createSocket role due f found =>
    obtain ⟨hrole,hlater⟩ := making_create h due
    refine ⟨role,f,_,due,hrole,rfl,found,rfl,.running (fun k hk => ?_) hlater⟩
    obtain rfl : .call (.bind role s) = k := by simpa [Thread.proceed] using hk
    trivial

end Ns3Helix.ExampleSchedule
