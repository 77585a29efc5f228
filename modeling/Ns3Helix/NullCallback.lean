import Ns3Helix.SocketHistory

/-!
# Null callbacks

`SetRecvCallback` and `SetSendCallback` install a trampoline also for a null
callback, and the trampoline does not test what it invokes. A socket without
a wrapper ignores an event whose callback was deregistered; here it depends
on the events that still arrive.
-/

set_option autoImplicit false

namespace Ns3Helix.NullCallback
open Ns3Helix.SocketInterface Ns3Helix.SocketImpl Ns3Helix.SocketMachine
open Ns3Helix.SocketHistory Ns3Helix.TransitionSystem

variable {P : Platform} {η ι : Type} {M : UdpMachine P ι}

section Runs

variable [DecidableEq η] [DecidableEq ι] {f : η ↪ ι}

/-- Only an event that reaches a Helix socket can fail. -/
theorem crash_raise {c : Config P η ι M} {ls : List (Label P η ι)} (h : Tracks f ls c)
    {a : Action P η ι} {r : Config P η ι M × Seen P η ι} (hexec : c.exec a = some r) {k : Fault}
    (hr : r.2 = .crashed k) : ∃ g e, a = .udp (.raise (f g) e) := by
  rcases exec_quiet h hexec with hq | ⟨u,e,rfl,rfl⟩
  · rw [hr] at hq
    exact hq.elim
  · by_cases hu : ∃ g, f g = u
    · obtain ⟨g,rfl⟩ := hu
      exact ⟨g,e,rfl⟩
    · rcases raise_plain (h.others u (fun g hg => hu ⟨g,hg⟩)) e with hn | ⟨cb,hn⟩
      · rw [hr] at hn; cases hn
      · rw [hr] at hn; cases hn

def Deregistered (g : η) (pre : List (Label P η ι)) (e : Event) : Prop :=
  (history g pre).registered e = some none

/-- No null callback is invoked, and events whose callback was deregistered
are ignored, exactly in the runs in which no such event arrives at all. -/
theorem null_callback_never_invoked_iff {tr : List (Config P η ι M × Label P η ι)}
    {c : Config P η ι M} (hrun : Run (Step M) (initial M f) tr c) :
    ((∀ l ∈ labels tr, l.2 ≠ .crashed .nullCallback) ∧
      ∀ pre g e seen post, labels tr = pre++(.udp (.raise (f g) e),seen)::post →
        Deregistered g pre e → seen = .nothing) ↔
    ∀ pre g e seen post, labels tr = pre++(.udp (.raise (f g) e),seen)::post →
      ¬ Deregistered g pre e := by
  have crashes : ∀ pre g e seen post, labels tr = pre++(.udp (.raise (f g) e),seen)::post →
      (seen = .crashed .nullCallback ↔ Deregistered g pre e) := by
    intro pre g e seen post hl
    rw [run_answer hrun hl,History.answer,Deregistered]
    rcases (history g pre).registered e with _ | _ | cb <;> simp
  constructor
  · rintro ⟨hsafe,_⟩ pre g e seen post hl hd
    have hmem : (.udp (.raise (f g) e),seen) ∈ labels tr := by rw [hl]; simp
    exact hsafe _ hmem ((crashes pre g e seen post hl).mpr hd)
  · intro hnone
    refine ⟨?_,fun pre g e seen post hl hd => absurd hd (hnone pre g e seen post hl)⟩
    intro l hmem hcrash
    obtain ⟨pre,post,hl⟩ := List.append_of_mem hmem
    obtain ⟨t,r,htracks,hexec,hr⟩ := run_tracks_at hrun hl
    obtain ⟨g,e,ha⟩ := crash_raise htracks hexec (hr.trans hcrash)
    obtain ⟨a,seen⟩ := l
    obtain rfl : a = .udp (.raise (f g) e) := ha
    exact hnone pre g e seen post hl ((crashes pre g e seen post hl).mp hcrash)

end Runs

/-- A callback is taken away and registered again before an event arrives. -/
theorem reregistered_delivered : ∃ tr, ∃ c : Config .unit Unit Unit arbitrary,
    labels tr = [(.call (.helix ()) (.setRecvCallback none),.nothing),
      (.udp (.return ⟨.void,()⟩),.returned (.helix ()) ⟨.void,()⟩),
      (.call (.helix ()) (.setRecvCallback (some ())),.nothing),
      (.udp (.return ⟨.void,()⟩),.returned (.helix ()) ⟨.void,()⟩),
      (.udp .wake,.nothing),
      (.udp (.raise () .recv),.invoked () (.helix ()) .recv)] ∧
    Run (Step arbitrary) (initial arbitrary (.refl Unit)) tr c ∧
    (((∀ l ∈ labels tr, l.2 ≠ .crashed .nullCallback) ∧
      ∀ pre g e seen post,
        labels tr = pre++(.udp (.raise (Function.Embedding.refl Unit g) e),seen)::post →
        Deregistered g pre e → seen = .nothing) ↔
    ∀ pre g e seen post,
      labels tr = pre++(.udp (.raise (Function.Embedding.refl Unit g) e),seen)::post →
      ¬ Deregistered g pre e) := by
  have start : Run (Step (arbitrary : UdpMachine .unit Unit)) (initial arbitrary (.refl Unit))
    [] _ := .nil
  have called := run_then start (.call (.helix ()) (.setRecvCallback none),.nothing)
    ⟨trivial,(),rfl,rfl⟩
  have returned := run_then called (.udp (.return ⟨.void,()⟩),.returned (.helix ()) ⟨.void,()⟩)
    ⟨trivial,(),trivial,rfl⟩
  have again := run_then returned (.call (.helix ()) (.setRecvCallback (some ())),.nothing)
    ⟨trivial,(),rfl,rfl⟩
  have registered := run_then again (.udp (.return ⟨.void,()⟩),.returned (.helix ()) ⟨.void,()⟩)
    ⟨trivial,(),trivial,rfl⟩
  have woken := run_then registered (.udp .wake,.nothing) ⟨trivial,(),trivial,rfl⟩
  have hrun := run_then woken (.udp (.raise () .recv),.invoked () (.helix ()) .recv)
    ⟨trivial,(),trivial,rfl⟩
  exact ⟨_,_,rfl,hrun,null_callback_never_invoked_iff hrun⟩

/-- A null send callback is registered, as on closing a socket, and the UDP
socket reports the end of the next transmission. -/
theorem deregistered_send_crashes :
    ¬ ∀ ls, Traces (Step .prompt) (initial .prompt (.refl Unit)) ls →
      ∀ l ∈ ls, l.2 ≠ .crashed .nullCallback := by
  intro hsafe
  have start : Run (Step .prompt) (initial .prompt (.refl Unit)) [] _ := .nil
  have called := run_then start (.call (.helix ()) (.setSendCallback none),.nothing)
    ⟨trivial,_,rfl,rfl⟩
  have returned := run_then called (.udp (.return ⟨.void,()⟩),.returned (.helix ()) ⟨.void,()⟩)
    ⟨trivial,_,rfl,rfl⟩
  have sending := run_then returned (.call (.helix ()) (.send (some ()) 0),.nothing)
    ⟨trivial,_,rfl,rfl⟩
  have hrun := run_then sending (.udp (.raise () (.send 0)),.crashed .nullCallback)
    ⟨trivial,_,rfl,rfl⟩
  exact hsafe _ ⟨_,_,hrun,rfl⟩ (.udp (.raise () (.send 0)),.crashed .nullCallback) (by simp) rfl

end Ns3Helix.NullCallback
