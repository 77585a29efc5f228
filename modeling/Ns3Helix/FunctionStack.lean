import Ns3Helix.SocketCalls

/-!
# The functions of an application in progress

An application is one function at a time with callbacks on top. Each function
is before its next step, in a call, or at its end; what the steps and the calls
are is the application's. If it calls only when it is its turn and answers
every event, its functions mirror the calls and callbacks that are open, and it
can take part in whatever happens next.
-/

set_option autoImplicit false

namespace Ns3Helix.FunctionStack
open Ns3Helix.SocketInterface Ns3Helix.SocketImpl Ns3Helix.SocketMachine Ns3Helix.SocketCalls

section Functions

inductive Phase (σ κ : Type)
  | calling (l : σ)
  | waiting (k : κ)
  | returning

/-- A function in progress. It was invoked as a callback, or started by the
simulator. -/
structure Function (β σ κ : Type) where
  callback : Option β
  phase : Phase σ κ

variable {β σ κ : Type}

def ended (rest : List (Function β σ κ)) : Option β → List (Function β σ κ)
  | some cb => ⟨some cb,.returning⟩ :: rest
  | none => rest

def proceed (callback : Option β) (rest : List (Function β σ κ)) :
    Option σ → List (Function β σ κ)
  | some l => ⟨callback,.calling l⟩ :: rest
  | none => ended rest callback

theorem mem_proceed {callback : Option β} {rest : List (Function β σ κ)} {next : Option σ}
    {x : Function β σ κ} (h : x ∈ proceed callback rest next) :
    x ∈ rest ∨ x.phase = .returning ∨ ∃ l, next = some l ∧ x.phase = .calling l := by
  cases next with
  | some l =>
    rcases List.mem_cons.mp h with rfl | h
    · exact .inr (.inr ⟨l,rfl,rfl⟩)
    · exact .inl h
  | none =>
    cases callback with
    | some cb =>
      rcases List.mem_cons.mp h with rfl | h
      · exact .inr (.inl rfl)
      · exact .inl h
    | none => exact .inl h

end Functions

variable {P : Platform} {η ι σ κ : Type} {socket : κ → SocketRef η ι}
  {op : κ → Op P (fun _ => P.AppCallback)}

inductive Turns (socket : κ → SocketRef η ι) (op : κ → Op P (fun _ => P.AppCallback)) :
    List (Function P.AppCallback σ κ) → Label P η ι → List (Function P.AppCallback σ κ) → Prop
  | begin (l : σ) (k : κ) :
      Turns socket op [] (.call (socket k) (op k),.nothing) [⟨none,.waiting k⟩]
  | call {rest : List (Function P.AppCallback σ κ)} (callback : Option P.AppCallback) (l : σ)
      (k : κ) : Turns socket op (⟨callback,.calling l⟩ :: rest)
        (.call (socket k) (op k),.nothing) (⟨callback,.waiting k⟩ :: rest)
  | returned {rest : List (Function P.AppCallback σ κ)} (callback : Option P.AppCallback) (k : κ)
      (v : (op k).ty.denote P) (next : Option σ) : Turns socket op (⟨callback,.waiting k⟩ :: rest)
        (.udp (.return ⟨_,v⟩),.returned (socket k) ⟨_,v⟩) (proceed callback rest next)
  | invoked {fs : List (Function P.AppCallback σ κ)} (u : ι) (e : Event) (cb : P.AppCallback)
      (s : SocketRef η ι) (next : Option σ) :
      Turns socket op fs (.udp (.raise u e),.invoked cb s e) (proceed (some cb) fs next)
  | callbackReturn {rest : List (Function P.AppCallback σ κ)} (cb : P.AppCallback) :
      Turns socket op (⟨some cb,.returning⟩ :: rest) (.callbackReturn,.nothing) rest
  | udp {fs : List (Function P.AppCallback σ κ)} (move : UdpMove P ι) (seen : Seen P η ι)
      (unreturned : ∀ s v, seen ≠ .returned s v) (uninvoked : ∀ cb s e, seen ≠ .invoked cb s e) :
      Turns socket op fs (.udp move,seen) fs

/-- The functions in progress fit what is going on: whoever waits has been
called, and a callback runs until it returns. -/
inductive Follows (socket : κ → SocketRef η ι) (op : κ → Op P (fun _ => P.AppCallback)) :
    List (Activity η ι) → List (Function P.AppCallback σ κ) → Prop
  | nil : Follows socket op [] []
  | start (l : σ) : Follows socket op [] [⟨none,.calling l⟩]
  | calling {as : List (Activity η ι)} {rest : List (Function P.AppCallback σ κ)}
      (cb : P.AppCallback) (l : σ) (h : Follows socket op as rest) :
      Follows socket op (.callback :: as) (⟨some cb,.calling l⟩ :: rest)
  | returning {as : List (Activity η ι)} {rest : List (Function P.AppCallback σ κ)}
      (cb : P.AppCallback) (h : Follows socket op as rest) :
      Follows socket op (.callback :: as) (⟨some cb,.returning⟩ :: rest)
  | waiting {as : List (Activity η ι)} {rest : List (Function P.AppCallback σ κ)}
      {callback : Option P.AppCallback} {l : σ} (k : κ)
      (h : Follows socket op as (⟨callback,.calling l⟩ :: rest)) :
      Follows socket op (.call (socket k) (op k).ty :: as) (⟨callback,.waiting k⟩ :: rest)
  | spontaneous {as : List (Activity η ι)} {fs : List (Function P.AppCallback σ κ)}
      (h : Follows socket op as fs) : Follows socket op (.spontaneous :: as) fs
  | stopped {as : List (Activity η ι)} {fs : List (Function P.AppCallback σ κ)}
      (h : Follows socket op as fs) : Follows socket op (.stopped :: as) fs

variable {as as' : List (Activity η ι)} {fs fs' rest : List (Function P.AppCallback σ κ)}
  {callback : Option P.AppCallback} {l : σ}

theorem follows_idle (h : Follows socket op as ([] : List (Function P.AppCallback σ κ)))
    (turn : AppTurn as = true) : as = [] := by
  cases h with
  | nil => rfl
  | spontaneous h => cases turn
  | stopped h => cases turn

theorem follows_proceed (hfs : fs = ⟨callback,.calling l⟩ :: rest) (h : Follows socket op as fs)
    (next : Option σ) : Follows socket op as (proceed callback rest next) := by
  induction h with
  | nil => cases hfs
  | start =>
    cases hfs
    cases next with
    | some l => exact .start l
    | none => exact .nil
  | calling cb _ h =>
    cases hfs
    cases next with
    | some l => exact .calling cb l h
    | none => exact .returning cb h
  | returning | waiting => cases hfs
  | spontaneous _ ih => exact .spontaneous (ih hfs)
  | stopped _ ih => exact .stopped (ih hfs)

theorem follows_call {s : SocketRef η ι} {t : Ty} (h : Follows socket op as fs)
    (has : as = .call s t :: as') : ∃ callback k l rest, fs = ⟨callback,.waiting k⟩ :: rest ∧
      s = socket k ∧ t = (op k).ty ∧
      Follows socket op as' (⟨callback,.calling l⟩ :: rest) := by
  cases h with
  | waiting k h =>
    obtain ⟨hcall,rfl⟩ := List.cons.inj has
    obtain ⟨rfl,rfl⟩ := Activity.call.inj hcall
    exact ⟨_,k,_,_,rfl,rfl,rfl,h⟩
  | nil | start | calling | returning | spontaneous | stopped => cases has

/-- When it is the application's turn, no function waits. -/
theorem follows_turn (h : Follows socket op as fs) (turn : AppTurn as = true) :
    fs = [] ∨ (∃ callback l rest, fs = ⟨callback,.calling l⟩ :: rest) ∨
      ∃ cb rest as', fs = ⟨some cb,.returning⟩ :: rest ∧ as = .callback :: as' := by
  cases h with
  | nil => exact .inl rfl
  | start l => exact .inr (.inl ⟨none,l,[],rfl⟩)
  | calling cb l h => exact .inr (.inl ⟨some cb,l,_,rfl⟩)
  | returning cb h => exact .inr (.inr ⟨cb,_,_,rfl,rfl⟩)
  | waiting k h => cases turn
  | spontaneous h => cases turn
  | stopped h => cases turn

theorem follows_invoked (h : Follows socket op as fs) (cb : P.AppCallback) (next : Option σ) :
    Follows socket op (.callback :: as) (proceed (some cb) fs next) := by
  cases next with
  | some l => exact .calling cb l h
  | none => exact .returning cb h

theorem follows_step {x : Label P η ι} (h : Follows socket op as fs)
    (hcontinues : Continues as x as') (hturns : Turns socket op fs x fs') :
    Follows socket op as' fs' := by
  cases hturns with
  | begin l k =>
    cases hcontinues with
    | call turn _ _ =>
      obtain rfl := follows_idle h turn
      exact .waiting k (.start l)
  | call callback l k =>
    cases hcontinues with
    | call turn _ _ => exact .waiting k h
  | returned callback k v next =>
    cases hcontinues with
    | returned =>
      obtain ⟨_,_,_,_,hfs,_,_,h'⟩ := follows_call h rfl
      cases hfs
      exact follows_proceed rfl h' next
  | invoked u e cb s next =>
    cases hcontinues with
    | invoked => exact follows_invoked h cb next
  | callbackReturn cb =>
    cases hcontinues with
    | callbackReturn =>
      cases h with
      | returning _ h => exact h
  | udp move seen unreturned uninvoked =>
    cases hcontinues with
    | returned s v => exact absurd rfl (unreturned s v)
    | invoked turn u e cb s => exact absurd rfl (uninvoked cb s e)
    | ignored | transmit | receive => exact h
    | crashed turn u e => exact .stopped h
    | wake turn => exact .spontaneous h
    | sleep =>
      cases h with
      | spontaneous h => exact h

end Ns3Helix.FunctionStack
