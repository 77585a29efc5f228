import Ns3Helix.SocketMachine

/-!
# What one step can do

The wrapper's methods wait for one call and then hand its result on. As long
as every waiting method on the stack is of this kind, only two kinds of
action change the fields of any socket: the operation the application calls,
and the inherited member it calls. All invariants are derived from this.
-/

set_option autoImplicit false

namespace Ns3Helix.SocketMachine
open Ns3Helix.InteractionProgram Ns3Helix.SocketInterface Ns3Helix.SocketImpl

variable {P : Platform} {η ι : Type} {M : UdpMachine P ι}

def Frame.Echoing : Frame P η ι → Prop
  | .udp _ t (some w) => Echoes t w.result w.rest
  | .app (some w) => Echoes .void w.result w.rest
  | _ => True

def Config.Echoing (c : Config P η ι M) : Prop := ∀ f ∈ c.stack, f.Echoing

namespace Config

section
variable (c : Config P η ι M)

@[simp] theorem push_socket (f : Frame P η ι) : (c.push f).socket = c.socket := rfl
@[simp] theorem push_udp (f : Frame P η ι) : (c.push f).udp = c.udp := rfl
@[simp] theorem unwind_stack (r : List (Frame P η ι)) : (c.unwind r).stack = r := rfl
@[simp] theorem crash_socket : c.crash.socket = c.socket := rfl
@[simp] theorem crash_udp : c.crash.udp = c.udp := rfl
end

theorem echoing_push {c : Config P η ι M} {f : Frame P η ι} (h : c.Echoing) (hf : f.Echoing) :
    (c.push f).Echoing := by
  intro g hg
  rcases List.mem_cons.mp hg with rfl | hg
  · exact hf
  · exact h g hg

theorem echoing_unwind {c : Config P η ι M} {f : Frame P η ι} {rest : List (Frame P η ι)}
    (h : c.Echoing) (hs : c.stack = f :: rest) : (c.unwind rest).Echoing :=
  fun g hg => h g (by simpa [hs] using Or.inr hg)

theorem echoing_head {c : Config P η ι M} {f : Frame P η ι} {rest : List (Frame P η ι)}
    (h : c.Echoing) (hs : c.stack = f :: rest) : f.Echoing := h f (by simp [hs])

section GiveBack

variable (c : Config P η ι M) (s : SocketRef η ι) (v : Val P)

@[simp] theorem giveBack_socket : (c.giveBack s v).1.socket = c.socket := by
  unfold giveBack; split <;> rfl

@[simp] theorem giveBack_udp : (c.giveBack s v).1.udp = c.udp := by
  unfold giveBack; split <;> rfl

@[simp] theorem giveBack_stack : (c.giveBack s v).1.stack = c.stack := by
  unfold giveBack; split <;> rfl

end GiveBack

variable [DecidableEq η] [DecidableEq ι]

omit [DecidableEq ι] in
theorem store_same (c : Config P η ι M) (h : η) (out : List String) :
    c.store h (c.socket h,out) = { c with printed := out } := by
  simp [store,setSocket]

/-- A waiting method that echoes gives back what it was waiting for. -/
theorem run_echo (c : Config P η ι M) (h : η) {t t' : Ty}
    {k : t.denote P → SocketM P η ι (t'.denote P)} (hk : Echoes t t' k) (v : t.denote P) :
    ∃ out, c.run h t' (k v) = ({ c with printed := out } : Config P η ι M).giveBack
      (.helix h) ⟨t,v⟩ := by
  obtain ⟨v',out,hrun,hv⟩ := hk v (c.socket h) c.printed
  refine ⟨out,?_⟩
  simp only [run,hrun,land,store_same,hv]

theorem call_helix (c : Config P η ι M) (h : η) (o : Op P (fun _ => P.AppCallback)) (u : ι)
    (hu : (c.socket h).mUdpSocket = some u) :
    ∃ out k, c.call (.helix h) o = ((c.store h ((c.socket h).register o,out)).enterUdp u
        (forwarded h o) (some ⟨h,o.ty,k⟩),.nothing) ∧
      Echoes (forwarded h o).ty o.ty k := by
  obtain ⟨out,k,hrun,hk⟩ := method_forwards h o (c.socket h) c.printed u hu
  exact ⟨out,k,by simp only [call,run,hrun,land],hk⟩

theorem call_helix_null (c : Config P η ι M) (h : η) (o : Op P (fun _ => P.AppCallback))
    (hu : (c.socket h).mUdpSocket = none) :
    c.call (.helix h) o = (c.crash,.crashed .nullSocket) := by
  simp only [call,run,method_nullSocket h o _ _ hu,land]

/-- An event reaches Helix socket `h`: the callback kept there is invoked with
that socket, or it is null. -/
def reach (c : Config P η ι M) (h : η) (e : Event) : Config P η ι M × Seen P η ι :=
  match (c.socket h).kept e with
  | some cb => (c.push (.app (some ⟨h,.void,.pure⟩)),.invoked cb (.helix h) e)
  | none => (c.crash,.crashed .nullCallback)

theorem run_handleRecv (c : Config P η ι M) (h : η) (s : SocketRef η ι) :
    c.run h .void (handleRecv h s) = c.reach h .recv := by
  rw [run,handleRecv_invokes,reach,HelixSocketImpl.kept]
  cases (c.socket h).mHandleRecv with
  | none => rfl
  | some cb => simp only [land,store_same]

theorem run_handleSend (c : Config P η ι M) (h : η) (s : SocketRef η ι) (n : UInt32) :
    c.run h .void (handleSend h s n) = c.reach h (.send n) := by
  rw [run,handleSend_invokes,reach,HelixSocketImpl.kept]
  cases (c.socket h).mHandleSend with
  | none => rfl
  | some cb => simp only [land,store_same]

theorem raise_none {c : Config P η ι M} {u : ι} {e : Event}
    (h : (c.udp u).callback e.slot = none) : c.raise u e = (c,.nothing) := by
  rw [raise,h]

theorem raise_app {c : Config P η ι M} {u : ι} {e : Event} {cb : P.AppCallback}
    (h : (c.udp u).callback e.slot = some (.app cb)) :
    c.raise u e = (c.push (.app none),.invoked cb (.udp u) e) := by
  rw [raise,h]
  cases e <;> rfl

theorem raise_bound {c : Config P η ι M} {u : ι} {e : Event}
    {target : Target P.AppCallback η e.slot} {g : η}
    (h : (c.udp u).callback e.slot = some target) (hg : target.owner = some g) :
    c.raise u e = c.reach g e := by
  rw [raise,h]
  cases e with
  | recv =>
    cases target with
    | app cb => cases hg
    | handleRecv g' =>
      obtain rfl : g' = g := Option.some.inj hg
      exact run_handleRecv c g' (.udp u)
  | send n =>
    cases target with
    | app cb => cases hg
    | handleSend g' =>
      obtain rfl : g' = g := Option.some.inj hg
      exact run_handleSend c g' (.udp u) n
  | connectionSucceeded | connectionFailed | normalClose | errorClose | dataSent n =>
    cases target with
    | app cb => cases hg

def socketAfter (c : Config P η ι M) : Action P η ι → η → HelixSocketImpl P ι
  | .call (.helix h) o => match (c.socket h).mUdpSocket with
    | some _ => Function.update c.socket h ((c.socket h).register o)
    | none => c.socket
  | .inherited (.helix h) i =>
      Function.update c.socket h { c.socket h with base := i.effect (c.socket h).base }
  | _ => c.socket

def udpAfter (c : Config P η ι M) : Action P η ι → ι → SocketFields P (Target P.AppCallback η)
  | .call (.helix h) o => match (c.socket h).mUdpSocket with
    | some u => Function.update c.udp u ((forwarded h o).effect (c.udp u))
    | none => c.udp
  | .call (.udp u) o => Function.update c.udp u ((appOp o).effect (c.udp u))
  | .inherited (.udp u) i => Function.update c.udp u ((appInherited i).effect (c.udp u))
  | _ => c.udp

structure After (c : Config P η ι M) (a : Action P η ι) (c' : Config P η ι M) : Prop where
  socket : c'.socket = c.socketAfter a
  udp : c'.udp = c.udpAfter a
  echoing : c'.Echoing

theorem call_after {c : Config P η ι M} (h : c.Echoing) (s : SocketRef η ι)
    (o : Op P (fun _ => P.AppCallback)) : c.After (.call s o) (c.call s o).1 := by
  cases s with
  | udp u => exact ⟨rfl,rfl,echoing_push h trivial⟩
  | helix s =>
    cases hu : (c.socket s).mUdpSocket with
    | none =>
      rw [call_helix_null c s o hu]
      exact ⟨by simp [socketAfter,hu],by simp [udpAfter,hu],echoing_push h trivial⟩
    | some u =>
      obtain ⟨out,k,hcall,hk⟩ := call_helix c s o u hu
      rw [hcall]
      refine ⟨by simp [socketAfter,hu,enterUdp,store,setSocket,setUdp],
        by simp [udpAfter,hu,enterUdp,store,setSocket,setUdp],?_⟩
      exact echoing_push h (show (Frame.udp u (forwarded s o).ty (some ⟨s,o.ty,k⟩)).Echoing from hk)

theorem raise_after {c : Config P η ι M} (h : c.Echoing) (u : ι) (e : Event) :
    c.After (.udp (.raise u e)) (c.raise u e).1 := by
  have pushed : ∀ f : Frame P η ι, f.Echoing → c.After (.udp (.raise u e)) (c.push f) :=
    fun f hf => ⟨rfl,rfl,echoing_push h hf⟩
  cases hcb : (c.udp u).callback e.slot with
  | none =>
    rw [raise_none hcb]
    exact ⟨rfl,rfl,h⟩
  | some target =>
    rcases target_cases target with ⟨cb,rfl⟩ | ⟨g,hg⟩
    · rw [raise_app hcb]
      exact pushed _ trivial
    · rw [raise_bound hcb hg,reach]
      cases (c.socket g).kept e with
      | none => exact pushed _ trivial
      | some cb => exact pushed (.app (some ⟨g,.void,.pure⟩)) (echoes_pure .void)

theorem resumed_after {c : Config P η ι M} (h : c.Echoing) (s : η) (t t' : Ty)
    {k : t.denote P → SocketM P η ι (t'.denote P)} (hk : Echoes t t' k) (v : t.denote P) :
    (c.run s t' (k v)).1.socket = c.socket ∧ (c.run s t' (k v)).1.udp = c.udp ∧
      (c.run s t' (k v)).1.Echoing := by
  obtain ⟨out,hrun⟩ := run_echo c s hk v
  rw [hrun]
  exact ⟨by simp,by simp,by simpa [Config.Echoing] using h⟩

theorem handOver_after {c : Config P η ι M} (h : c.Echoing) (u : ι) (t : Ty) (v : t.denote P)
    (w : Option (Waiting P η ι t)) (hw : (Frame.udp u t w).Echoing) :
    (c.handOver (.udp u) t v w).1.socket = c.socket ∧ (c.handOver (.udp u) t v w).1.udp = c.udp ∧
      (c.handOver (.udp u) t v w).1.Echoing := by
  cases w with
  | none => exact ⟨by simp [handOver],by simp [handOver],by simpa [handOver,Config.Echoing] using h⟩
  | some w => exact resumed_after h w.socket t w.result hw v

inductive Executes (c : Config P η ι M) : Action P η ι → Config P η ι M × Seen P η ι → Prop
  | call (s : SocketRef η ι) (o : Op P (fun _ => P.AppCallback)) (runs : c.appRuns = true) :
      Executes c (.call s o) (c.call s o)
  | inherited (s : SocketRef η ι) (i : Inherited (fun _ => P.AppCallback))
      (runs : c.appRuns = true) : Executes c (.inherited s i) (c.inherited s i)
  | resumeMethod (w : Waiting P η ι .void) (rest : List (Frame P η ι))
      (hs : c.stack = .app (some w) :: rest) :
      Executes c .callbackReturn ((c.unwind rest).run w.socket w.result (w.rest ()))
  | resumeUdp (rest : List (Frame P η ι)) (hs : c.stack = .app none :: rest) :
      Executes c .callbackReturn ((c.unwind rest).resume,.nothing)
  | return (u : ι) (t : Ty) (v : t.denote P) (caller : Option (Waiting P η ι t))
      (rest : List (Frame P η ι)) (hs : c.stack = .udp u t caller :: rest) :
      Executes c (.udp (.return ⟨t,v⟩)) ((c.unwind rest).handOver (.udp u) t v caller)
  | raise (u : ι) (e : Event) (runs : c.udpRuns = true) :
      Executes c (.udp (.raise u e)) (c.raise u e)
  | transmit (u : ι) (connected : Bool) (address : P.Address) (runs : c.udpRuns = true) :
      Executes c (.udp (.transmit u connected address))
        (c,.stamped (sendTags P connected address (c.udp u).options))
  | receive (u : ι) (fromAddress : P.Address) (runs : c.udpRuns = true) :
      Executes c (.udp (.receive u fromAddress))
        (c,.informed (recvTags P fromAddress (c.udp u).options))
  | wake (runs : c.appRuns = true) : Executes c (.udp .wake) (c.push .spontaneous,.nothing)
  | sleep (rest : List (Frame P η ι)) (hs : c.stack = .spontaneous :: rest) :
      Executes c (.udp .sleep) (c.unwind rest,.nothing)

theorem exec_executes {c : Config P η ι M} {a : Action P η ι} {r : Config P η ι M × Seen P η ι}
    (h : c.exec a = some r) : c.Executes a r := by
  have guarded : ∀ {p : Bool} {x : Config P η ι M × Seen P η ι},
      (if p then some x else none) = some r → p = true ∧ x = r := by
    intro p x hx
    simpa only [Option.ite_none_right_eq_some,Option.some.injEq] using hx
  cases a with
  | call s o =>
    obtain ⟨hp,rfl⟩ := guarded h
    exact .call s o hp
  | inherited s i =>
    obtain ⟨hp,rfl⟩ := guarded h
    exact .inherited s i hp
  | callbackReturn =>
    simp only [exec] at h
    split at h
    next w rest hs =>
      obtain rfl := Option.some.inj h
      exact .resumeMethod w rest hs
    next rest hs =>
      obtain rfl := Option.some.inj h
      exact .resumeUdp rest hs
    next => simp at h
  | udp move =>
    cases move with
    | «return» v =>
      simp only [exec] at h
      split at h
      next u t caller rest hs =>
        obtain ⟨ht,rfl⟩ := by
          simpa only [Option.dite_none_right_eq_some,Option.some.injEq] using h
        obtain ⟨t',v⟩ := v
        obtain rfl : t' = t := ht
        exact .return u t' v caller rest hs
      next => simp at h
    | raise u e =>
      obtain ⟨hp,rfl⟩ := guarded h
      exact .raise u e hp
    | transmit u connected address =>
      obtain ⟨hp,rfl⟩ := guarded h
      exact .transmit u connected address hp
    | receive u fromAddress =>
      obtain ⟨hp,rfl⟩ := guarded h
      exact .receive u fromAddress hp
    | wake =>
      obtain ⟨hp,rfl⟩ := guarded h
      exact .wake hp
    | sleep =>
      simp only [exec] at h
      split at h
      next rest hs =>
        obtain rfl := Option.some.inj h
        exact .sleep rest hs
      next => simp at h

theorem exec_raise {c : Config P η ι M} {u : ι} {e : Event} {r : Config P η ι M × Seen P η ι}
    (h : c.exec (.udp (.raise u e)) = some r) : c.raise u e = r := by
  simp only [exec,Option.ite_none_right_eq_some,Option.some.injEq] at h
  exact h.2

theorem exec_after {c : Config P η ι M} {a : Action P η ι} {r : Config P η ι M × Seen P η ι}
    (h : c.Echoing) (hexec : c.exec a = some r) : c.After a r.1 := by
  cases exec_executes hexec with
  | call s o _ => exact call_after h s o
  | inherited s i _ => cases s <;> exact ⟨rfl,rfl,h⟩
  | resumeMethod w rest hs =>
    obtain ⟨h1,h2,h3⟩ := resumed_after (echoing_unwind h hs) w.socket .void w.result
      (echoing_head h hs) ()
    exact ⟨h1,h2,h3⟩
  | resumeUdp rest hs => exact ⟨rfl,rfl,echoing_unwind h hs⟩
  | «return» u t v caller rest hs =>
    obtain ⟨h1,h2,h3⟩ := handOver_after (echoing_unwind h hs) u t v caller (echoing_head h hs)
    exact ⟨h1,h2,h3⟩
  | raise u e _ => exact raise_after h u e
  | transmit | receive => exact ⟨rfl,rfl,h⟩
  | wake _ => exact ⟨rfl,rfl,echoing_push h trivial⟩
  | sleep rest hs => exact ⟨rfl,rfl,echoing_unwind h hs⟩

end Config

theorem step_after [DecidableEq η] [DecidableEq ι] {c c' : Config P η ι M} {l : Label P η ι}
    (h : c.Echoing) (hstep : Step M c l c') : c.After l.1 c' := by
  obtain ⟨_,s,_,hexec⟩ := hstep
  obtain ⟨h1,h2,h3⟩ := Config.exec_after (show (c.withMachine s).Echoing from h) hexec
  exact ⟨h1,h2,h3⟩

end Ns3Helix.SocketMachine
