import Ns3Helix.SocketSteps

/-!
# The interposed socket is transparent

An application that uses Helix sockets and one that uses the UDP sockets
below them directly are compared step by step, over one arbitrary UDP layer.
The wrapper splits a registration in two: the callback stays in the wrapper
and its trampoline goes to the UDP socket. The relation below keeps the two
halves together through every operation, event and nested callback.
-/

set_option autoImplicit false

namespace Ns3Helix.SocketTransparency
open Ns3Helix.InteractionProgram Ns3Helix.SocketInterface Ns3Helix.SocketImpl
open Ns3Helix.SocketMachine Ns3Helix.TransitionSystem

variable {P : Platform} {η ι : Type} {M : UdpMachine P ι}

/-- The application calls the overridden operations of Helix sockets only and
registers no null callback. The UDP layer does what it likes. -/
def HelixUse : Action P η ι → Prop
  | .call (.helix _) o => o.NonNull
  | .callbackReturn => True
  | .udp _ => True
  | _ => False

def UdpUse (f : η ↪ ι) : Action P η ι → Prop
  | .call (.udp u) o => (∃ h, f h = u) ∧ o.NonNull
  | .callbackReturn => True
  | .udp _ => True
  | _ => False

inductive RenamesAction (f : η ↪ ι) : Action P η ι → Action P η ι → Prop
  | call (h : η) (o : Op P (fun _ => P.AppCallback)) (ho : o.NonNull) :
      RenamesAction f (.call (.helix h) o) (.call (.udp (f h)) o)
  | callbackReturn : RenamesAction f .callbackReturn .callbackReturn
  | udp (move : UdpMove P ι) : RenamesAction f (.udp move) (.udp move)

inductive RenamesSeen (f : η ↪ ι) : Seen P η ι → Seen P η ι → Prop
  | nothing : RenamesSeen f .nothing .nothing
  | returned (h : η) (v : Val P) : RenamesSeen f (.returned (.helix h) v) (.returned (.udp (f h)) v)
  | invoked (cb : P.AppCallback) (h : η) (e : Event) :
      RenamesSeen f (.invoked cb (.helix h) e) (.invoked cb (.udp (f h)) e)
  | stamped (tags : SendTags) : RenamesSeen f (.stamped tags) (.stamped tags)
  | informed (tags : List OptionName) : RenamesSeen f (.informed tags) (.informed tags)

def Renames (f : η ↪ ι) (l k : Label P η ι) : Prop :=
  RenamesAction f l.1 k.1 ∧ RenamesSeen f l.2 k.2

theorem renames_helixUse {f : η ↪ ι} {a b : Action P η ι} (h : RenamesAction f a b) :
    HelixUse a := by
  cases h with
  | call h o ho => exact ho
  | callbackReturn | udp move => trivial

theorem renames_udpUse {f : η ↪ ι} {a b : Action P η ι} (h : RenamesAction f a b) :
    UdpUse f b := by
  cases h with
  | call h o ho => exact ⟨⟨h,rfl⟩,ho⟩
  | callbackReturn | udp move => trivial

theorem helixUse_renames (f : η ↪ ι) {a : Action P η ι} (h : HelixUse a) :
    ∃ b, RenamesAction f a b := by
  cases a with
  | call s o => cases s with
    | helix s => exact ⟨_,.call s o h⟩
    | udp u => exact h.elim
  | inherited s i => exact h.elim
  | callbackReturn => exact ⟨_,.callbackReturn⟩
  | udp move => exact ⟨_,.udp move⟩

theorem udpUse_renames {f : η ↪ ι} {b : Action P η ι} (h : UdpUse f b) :
    ∃ a, RenamesAction f a b := by
  cases b with
  | call s o => cases s with
    | helix s => exact h.elim
    | udp u =>
      obtain ⟨⟨s,rfl⟩,ho⟩ := h
      exact ⟨_,.call s o ho⟩
  | inherited s i => exact h.elim
  | callbackReturn => exact ⟨_,.callbackReturn⟩
  | udp move => exact ⟨_,.udp move⟩

structure PairMirrors (h : η) (w : HelixSocketImpl P ι)
    (x y : SocketFields P (Target P.AppCallback η)) : Prop where
  recv : x.callback .recv = w.mHandleRecv.map (fun _ => .handleRecv h)
  bareRecv : y.callback .recv = appCallback w.mHandleRecv
  send : x.callback .send = w.mHandleSend.map (fun _ => .handleSend h)
  bareSend : y.callback .send = appCallback w.mHandleSend
  others : ∀ s, s ≠ .recv → s ≠ .send → x.callback s = none ∧ y.callback s = none
  options : x.options = y.options

theorem pair_fresh (h : η) (u : Option ι) :
    PairMirrors h (HelixSocketImpl.fresh.setUdpSocket u)
      (.fresh : SocketFields P (Target P.AppCallback η)) .fresh :=
  ⟨rfl,rfl,rfl,rfl,fun _ _ _ => ⟨rfl,rfl⟩,rfl⟩

theorem pair_call {h : η} {w : HelixSocketImpl P ι}
    {x y : SocketFields P (Target P.AppCallback η)} (hp : PairMirrors h w x y)
    (o : Op P (fun _ => P.AppCallback)) (ho : o.NonNull) :
    PairMirrors h (w.register o) ((forwarded h o).effect x) ((appOp o).effect y) := by
  have unchanged : PairMirrors h w x y := hp
  have addressed : ∀ a, PairMirrors h w { x with options := setAddressTos P a x.options }
      { y with options := setAddressTos P a y.options } :=
    fun a => ⟨hp.recv,hp.bareRecv,hp.send,hp.bareSend,hp.others,by simp only [hp.options]⟩
  cases o
  case setRecvCallback cb =>
    obtain ⟨cb,rfl⟩ := Option.isSome_iff_exists.mp ho
    refine ⟨by simp [forwarded,Op.map,Op.effect,HelixSocketImpl.register],
      by simp [appOp,Op.map,Op.effect,HelixSocketImpl.register],?_,?_,?_,hp.options⟩
    · simpa [forwarded,Op.map,Op.effect,HelixSocketImpl.register] using hp.send
    · simpa [appOp,Op.map,Op.effect,HelixSocketImpl.register] using hp.bareSend
    · intro s hr hs
      simpa [forwarded,appOp,Op.map,Op.effect,hr] using hp.others s hr hs
  case setSendCallback cb =>
    obtain ⟨cb,rfl⟩ := Option.isSome_iff_exists.mp ho
    refine ⟨?_,?_,by simp [forwarded,Op.map,Op.effect,HelixSocketImpl.register],
      by simp [appOp,Op.map,Op.effect,HelixSocketImpl.register],?_,hp.options⟩
    · simpa [forwarded,Op.map,Op.effect,HelixSocketImpl.register] using hp.recv
    · simpa [appOp,Op.map,Op.effect,HelixSocketImpl.register] using hp.bareRecv
    · intro s hr hs
      simpa [forwarded,appOp,Op.map,Op.effect,hs] using hp.others s hr hs
  case connect a => exact addressed a
  case bindAddress a => exact addressed a
  case bindToNetDevice d => exact ⟨hp.recv,hp.bareRecv,hp.send,hp.bareSend,hp.others,hp.options⟩
  all_goals exact unchanged

/-- What both sides find in their callback fields when an event is raised. -/
theorem pair_event {h : η} {w : HelixSocketImpl P ι}
    {x y : SocketFields P (Target P.AppCallback η)} (hp : PairMirrors h w x y) (e : Event) :
    (x.callback e.slot = none ∧ y.callback e.slot = none) ∨
    ∃ cb target, w.kept e = some cb ∧ x.callback e.slot = some target ∧
      target.owner = some h ∧ y.callback e.slot = some (.app cb) := by
  cases e with
  | recv =>
    cases hw : w.mHandleRecv with
    | none =>
      have hx : x.callback .recv = none := by rw [hp.recv,hw]; rfl
      have hy : y.callback .recv = none := by rw [hp.bareRecv,hw]; rfl
      exact .inl ⟨hx,hy⟩
    | some cb =>
      have hx : x.callback .recv = some (.handleRecv h) := by rw [hp.recv,hw]; rfl
      have hy : y.callback .recv = some (.app cb) := by rw [hp.bareRecv,hw]; rfl
      exact .inr ⟨cb,.handleRecv h,hw,hx,rfl,hy⟩
  | send n =>
    cases hw : w.mHandleSend with
    | none =>
      have hx : x.callback .send = none := by rw [hp.send,hw]; rfl
      have hy : y.callback .send = none := by rw [hp.bareSend,hw]; rfl
      exact .inl ⟨hx,hy⟩
    | some cb =>
      have hx : x.callback .send = some (.handleSend h) := by rw [hp.send,hw]; rfl
      have hy : y.callback .send = some (.app cb) := by rw [hp.bareSend,hw]; rfl
      exact .inr ⟨cb,.handleSend h,hw,hx,rfl,hy⟩
  | connectionSucceeded | connectionFailed | normalClose | errorClose | dataSent n =>
    exact .inl (hp.others _ (fun h => by cases h) (fun h => by cases h))

def UdpTop : List (Frame P η ι) → Prop
  | .udp _ _ _ :: _ => True
  | .spontaneous :: _ => True
  | _ => False

/-- Below every frame the wrapper adds nothing but methods that wait for what
the frame hands on. -/
inductive StackMirrors (f : η ↪ ι) : List (Frame P η ι) → List (Frame P η ι) → Prop
  | nil : StackMirrors f [] []
  | udp {c d : List (Frame P η ι)} (h : η) (t t' : Ty)
      (k : t.denote P → SocketM P η ι (t'.denote P)) (hk : Echoes t t' k)
      (rest : StackMirrors f c d) :
      StackMirrors f (.udp (f h) t (some ⟨h,t',k⟩) :: c) (.udp (f h) t none :: d)
  | app {c d : List (Frame P η ι)} (h : η) (hc : UdpTop c) (rest : StackMirrors f c d) :
      StackMirrors f (.app (some ⟨h,.void,.pure⟩) :: c) (.app none :: d)
  | spontaneous {c d : List (Frame P η ι)} (rest : StackMirrors f c d) :
      StackMirrors f (.spontaneous :: c) (.spontaneous :: d)

structure Mirrors (f : η ↪ ι) (c d : Config P η ι M) : Prop where
  machine : c.machine = d.machine
  owner : ∀ h, (c.socket h).mUdpSocket = some (f h)
  bare : ∀ h, (d.socket h).mUdpSocket = none
  pair : ∀ h, PairMirrors h (c.socket h) (c.udp (f h)) (d.udp (f h))
  unused : ∀ u, (∀ h, f h ≠ u) → c.udp u = .fresh ∧ d.udp u = .fresh
  stack : StackMirrors f c.stack d.stack

theorem mirrors_initial (f : η ↪ ι) : Mirrors f (initial M f) (SocketMachine.bare M) where
  machine := rfl
  owner _ := rfl
  bare _ := rfl
  pair h := pair_fresh h _
  unused _ _ := ⟨rfl,rfl⟩
  stack := .nil

theorem mirrors_appRuns {f : η ↪ ι} {c d : Config P η ι M} (h : Mirrors f c d) :
    c.appRuns = d.appRuns := by
  have hs := h.stack
  unfold Config.appRuns
  generalize c.stack = cs at hs ⊢
  generalize d.stack = ds at hs ⊢
  cases hs <;> rfl

theorem udpTop_busy {c : Config P η ι M} (h : UdpTop c.stack) : c.appRuns = false := by
  unfold UdpTop at h
  unfold Config.appRuns
  split at h <;> simp_all

theorem mirrors_udpRuns {f : η ↪ ι} {c d : Config P η ι M} (h : Mirrors f c d) :
    c.udpRuns = d.udpRuns := by
  have hs := h.stack
  unfold Config.udpRuns
  generalize c.stack = cs at hs ⊢
  generalize d.stack = ds at hs ⊢
  cases hs <;> rfl

theorem forwarded_erase (h : η) (o : Op P (fun _ => P.AppCallback)) (ho : o.NonNull) :
    (forwarded h o).erase = (appOp (η := η) o).erase := by
  cases o
  case setRecvCallback cb =>
    obtain ⟨cb,rfl⟩ := Option.isSome_iff_exists.mp ho
    rfl
  case setSendCallback cb =>
    obtain ⟨cb,rfl⟩ := Option.isSome_iff_exists.mp ho
    rfl
  all_goals rfl

def Agree (f : η ↪ ι) (r q : Config P η ι M × Seen P η ι) : Prop :=
  Mirrors f r.1 q.1 ∧ RenamesSeen f r.2 q.2

section Actions

variable {f : η ↪ ι} {c d : Config P η ι M}

theorem mirrors_machine (h : Mirrors f c d) (s : M.State) :
    Mirrors f (c.withMachine s) (d.withMachine s) :=
  { h with machine := rfl }

theorem mirrors_resume (h : Mirrors f c d) : Mirrors f c.resume d.resume :=
  { h with machine := congrArg M.resume h.machine }

theorem mirrors_stack (h : Mirrors f c d) {cs ds : List (Frame P η ι)}
    (hs : StackMirrors f cs ds) : Mirrors f (c.unwind cs) (d.unwind ds) :=
  { h with stack := hs }

theorem mirrors_options (h : Mirrors f c d) (u : ι) : (c.udp u).options = (d.udp u).options := by
  by_cases hu : ∃ s, f s = u
  · obtain ⟨s,rfl⟩ := hu
    exact (h.pair s).options
  · obtain ⟨hc,hd⟩ := h.unused u (fun s hs => hu ⟨s,hs⟩)
    rw [hc,hd]

theorem agree_giveBack (h : Mirrors f c d) (s : η) (v : Val P) (out : List String) :
    Agree f (({ c with printed := out } : Config P η ι M).giveBack (.helix s) v)
      (d.giveBack (.udp (f s)) v) := by
  have hc : Mirrors f ({ c with printed := out } : Config P η ι M) d := { h with }
  have hruns := mirrors_appRuns hc
  unfold Config.giveBack
  by_cases hd : d.appRuns = true
  · rw [if_pos (hruns.trans hd),if_pos hd]
    exact ⟨hc,.returned s v⟩
  · rw [if_neg (hruns ▸ hd),if_neg hd]
    exact ⟨mirrors_resume hc,.nothing⟩

variable [DecidableEq η] [DecidableEq ι]

theorem agree_call (h : Mirrors f c d) (s : η) (o : Op P (fun _ => P.AppCallback))
    (ho : o.NonNull) : Agree f (c.call (.helix s) o) (d.call (.udp (f s)) o) := by
  obtain ⟨out,k,hcall,hk⟩ := Config.call_helix c s o (f s) (h.owner s)
  rw [hcall]
  refine ⟨⟨?_,?_,h.bare,?_,?_,?_⟩,.nothing⟩
  · show M.enter c.machine _ _ = M.enter d.machine _ _
    rw [forwarded_erase s o ho,h.machine]
  · intro g
    by_cases hg : g = s
    · subst hg
      simpa [Config.enterUdp,Config.store,Config.setSocket,Config.setUdp] using h.owner g
    · simpa [Config.enterUdp,Config.store,Config.setSocket,Config.setUdp,hg] using h.owner g
  · intro g
    by_cases hg : g = s
    · subst hg
      simpa [Config.call,Config.enterUdp,Config.store,Config.setSocket,Config.setUdp]
        using pair_call (h.pair g) o ho
    · have hfg : f g ≠ f s := fun e => hg (f.injective e)
      simpa [Config.call,Config.enterUdp,Config.store,Config.setSocket,Config.setUdp,hg,hfg]
        using h.pair g
  · intro u hu
    have hs : u ≠ f s := fun e => hu s e.symm
    simpa [Config.call,Config.enterUdp,Config.store,Config.setSocket,Config.setUdp,hs]
      using h.unused u hu
  · have hty : (forwarded s o).ty = (appOp (η := η) o).ty := by simp [forwarded,appOp]
    show StackMirrors f (.udp (f s) (forwarded s o).ty (some ⟨s,o.ty,k⟩) :: c.stack)
      (.udp (f s) (appOp o).ty none :: d.stack)
    rw [← hty]
    exact .udp s _ _ k hk h.stack

theorem agree_raise (h : Mirrors f c d) (hruns : c.udpRuns = true) (u : ι) (e : Event) :
    Agree f (c.raise u e) (d.raise u e) := by
  have ignored : (c.udp u).callback e.slot = none → (d.udp u).callback e.slot = none →
      Agree f (c.raise u e) (d.raise u e) := by
    intro hc hd
    rw [Config.raise_none hc,Config.raise_none hd]
    exact ⟨h,.nothing⟩
  by_cases hu : ∃ s, f s = u
  · obtain ⟨s,rfl⟩ := hu
    rcases pair_event (h.pair s) e with ⟨hc,hd⟩ | ⟨cb,target,hkept,hc,hbound,hd⟩
    · exact ignored hc hd
    · rw [Config.raise_bound hc hbound,Config.raise_app hd,Config.reach,hkept]
      have htop : UdpTop c.stack := by
        unfold Config.udpRuns at hruns
        unfold UdpTop
        split at hruns <;> simp_all
      exact ⟨{ h with stack := .app s htop h.stack },.invoked cb s e⟩
  · obtain ⟨hc,hd⟩ := h.unused u (fun s hs => hu ⟨s,hs⟩)
    exact ignored (by rw [hc]; rfl) (by rw [hd]; rfl)

theorem agree_callbackReturn (h : Mirrors f c d) :
    Option.Rel (Agree f) (c.exec .callbackReturn) (d.exec .callbackReturn) := by
  have hs := h.stack
  simp only [Config.exec]
  generalize hcs : c.stack = cs at hs
  generalize hds : d.stack = ds at hs
  cases hs with
  | @app cs ds s htop rest =>
    obtain ⟨out,hrun⟩ := Config.run_echo (c.unwind cs) s (echoes_pure .void) ()
    have hbusy : Config.appRuns ({ c.unwind cs with printed := out } : Config P η ι M) = false :=
      udpTop_busy htop
    apply Option.Rel.some
    rw [hrun,Config.giveBack,hbusy]
    exact ⟨{ mirrors_resume (mirrors_stack h rest) with },.nothing⟩
  | nil => exact .none
  | udp s t t' k hk rest => exact .none
  | spontaneous rest => exact .none

theorem agree_sleep (h : Mirrors f c d) :
    Option.Rel (Agree f) (c.exec (.udp .sleep)) (d.exec (.udp .sleep)) := by
  have hs := h.stack
  simp only [Config.exec]
  generalize hcs : c.stack = cs at hs
  generalize hds : d.stack = ds at hs
  cases hs with
  | spontaneous rest => exact .some ⟨mirrors_stack h rest,.nothing⟩
  | nil => exact .none
  | udp s t t' k hk rest => exact .none
  | app s htop rest => exact .none

theorem agree_return (h : Mirrors f c d) (v : Val P) :
    Option.Rel (Agree f) (c.exec (.udp (.return v))) (d.exec (.udp (.return v))) := by
  have hs := h.stack
  simp only [Config.exec]
  generalize hcs : c.stack = cs at hs
  generalize hds : d.stack = ds at hs
  cases hs with
  | @udp cs ds s t t' k hk rest =>
    by_cases hv : v.1 = t
    · subst hv
      obtain ⟨out,hrun⟩ := Config.run_echo (c.unwind cs) s hk v.2
      simp only [↓reduceDIte]
      apply Option.Rel.some
      simp only [Config.handOver]
      rw [hrun]
      exact agree_giveBack (mirrors_stack h rest) s v out
    · simp only [dif_neg hv]
      exact .none
  | app s htop rest => exact .none
  | nil => exact .none
  | spontaneous rest => exact .none

theorem exec_mirrors (h : Mirrors f c d) {a b : Action P η ι} (hab : RenamesAction f a b) :
    Option.Rel (Agree f) (c.exec a) (d.exec b) := by
  have ifRuns : ∀ {p q : Bool} {r s : Config P η ι M × Seen P η ι}, p = q →
      (p = true → Agree f r s) →
      Option.Rel (Agree f) (if p then some r else none) (if q then some s else none) := by
    rintro p _ r s rfl hrs
    cases p with
    | false => exact .none
    | true => exact .some (hrs rfl)
  cases hab with
  | call s o ho => exact ifRuns (mirrors_appRuns h) fun _ => agree_call h s o ho
  | callbackReturn => exact agree_callbackReturn h
  | udp move =>
    cases move with
    | «return» v => exact agree_return h v
    | raise u e => exact ifRuns (mirrors_udpRuns h) fun hruns => agree_raise h hruns u e
    | transmit u connected address =>
      refine ifRuns (mirrors_udpRuns h) fun _ => ⟨h,?_⟩
      rw [mirrors_options h u]
      exact .stamped _
    | receive u fromAddress =>
      refine ifRuns (mirrors_udpRuns h) fun _ => ⟨h,?_⟩
      rw [mirrors_options h u]
      exact .informed _
    | wake =>
      exact ifRuns (mirrors_appRuns h) fun _ =>
        ⟨{ h with stack := .spontaneous h.stack },.nothing⟩
    | sleep => exact agree_sleep h

end Actions

section Comparison

variable {f : η ↪ ι}

theorem mirrors_admits {c d : Config P η ι M} (h : Mirrors f c d) {a b : Action P η ι}
    (hab : RenamesAction f a b) : c.Admits a ∧ d.Admits b := by
  cases hab with
  | call s o ho => exact ⟨trivial,fun g => by simp [h.bare g]⟩
  | callbackReturn | udp move => exact ⟨trivial,trivial⟩

theorem moves_renames {s s' : M.State} {a b : Action P η ι} (hab : RenamesAction f a b) :
    Moves M s a s' ↔ Moves M s b s' := by
  cases hab <;> rfl

variable [DecidableEq η] [DecidableEq ι]

theorem step_forth {c d c' : Config P η ι M} (h : Mirrors f c d) {l : Label P η ι}
    (hl : HelixUse l.1) (hstep : Step M c l c') :
    ∃ k d', Renames f l k ∧ UdpUse f k.1 ∧ Step M d k d' ∧ Mirrors f c' d' := by
  obtain ⟨b,hab⟩ := helixUse_renames f hl
  obtain ⟨_,s,hs,hexec⟩ := hstep
  have hrel := exec_mirrors (mirrors_machine h s) hab
  rw [hexec] at hrel
  cases hd : (d.withMachine s).exec b with
  | none =>
    rw [hd] at hrel
    cases hrel
  | some q =>
    rw [hd] at hrel
    cases hrel with
    | some hq =>
      have hmoves : Moves M d.machine b s := h.machine ▸ (moves_renames hab).mp hs
      exact ⟨(b,q.2),q.1,⟨hab,hq.2⟩,renames_udpUse hab,
        ⟨(mirrors_admits h hab).2,s,hmoves,hd⟩,hq.1⟩

theorem step_back {c d d' : Config P η ι M} (h : Mirrors f c d) {k : Label P η ι}
    (hk : UdpUse f k.1) (hstep : Step M d k d') :
    ∃ l c', Renames f l k ∧ HelixUse l.1 ∧ Step M c l c' ∧ Mirrors f c' d' := by
  obtain ⟨a,hab⟩ := udpUse_renames hk
  obtain ⟨_,s,hs,hexec⟩ := hstep
  have hrel := exec_mirrors (mirrors_machine h s) hab
  rw [hexec] at hrel
  cases hc : (c.withMachine s).exec a with
  | none =>
    rw [hc] at hrel
    cases hrel
  | some r =>
    rw [hc] at hrel
    cases hrel with
    | some hr =>
      have hmoves : Moves M c.machine a s := h.machine ▸ (moves_renames hab).mpr hs
      exact ⟨(a,r.2),r.1,⟨hab,hr.2⟩,renames_helixUse hab,
        ⟨(mirrors_admits h hab).1,s,hmoves,hc⟩,hr.1⟩

theorem mirrors_bisimulation (M : UdpMachine P ι) (f : η ↪ ι) :
    Bisimulation (Step M) (Step M) (Renames f) (fun l => HelixUse l.1) (fun k => UdpUse f k.1)
      (Mirrors f) where
  forth h hl hstep := step_forth h hl hstep
  back h hk hstep := step_back h hk hstep

/-- The Helix sockets and the UDP sockets they own are bisimilar, and so have
the same traces up to the renaming of sockets: every operation returns the
same value, every callback is invoked at the same moment with the same event,
and the UDP layer stamps its packets with the same options. -/
theorem helix_socket_transparent (M : UdpMachine P ι) (f : η ↪ ι) :
    (∃ R, R (initial M f) (SocketMachine.bare M) ∧
      Bisimulation (Step M) (Step M) (Renames f) (fun l => HelixUse l.1)
        (fun k => UdpUse f k.1) R) ∧
    (∀ ls, Traces (Step M) (initial M f) ls → (∀ l ∈ ls, HelixUse l.1) →
      ∃ ks, Traces (Step M) (SocketMachine.bare M) ks ∧ (∀ k ∈ ks, UdpUse f k.1) ∧
        List.Forall₂ (Renames f) ls ks) ∧
    (∀ ks, Traces (Step M) (SocketMachine.bare M) ks → (∀ k ∈ ks, UdpUse f k.1) →
      ∃ ls, Traces (Step M) (initial M f) ls ∧ (∀ l ∈ ls, HelixUse l.1) ∧
        List.Forall₂ (Renames f) ls ks) :=
  ⟨⟨Mirrors f,mirrors_initial f,mirrors_bisimulation M f⟩,
    bisimulation_traces (mirrors_bisimulation M f) (mirrors_initial f)⟩

end Comparison

end Ns3Helix.SocketTransparency
