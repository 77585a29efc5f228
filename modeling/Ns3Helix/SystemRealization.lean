import Mathlib.Order.WellFounded
import Ns3Helix.SystemProjection

/-!
# What the sockets of a system can do

Every run of the machine of sockets can be had from a node with a protocol:
enough sockets are created first, and the references to them are kept. With
the projection this says exactly what an application can see of the sockets
of a system.
-/

set_option autoImplicit false

namespace Ns3Helix.SystemRealization
open Ns3Helix.SocketInterface Ns3Helix.SocketImpl Ns3Helix.SocketMachine
open Ns3Helix.HelixSystem Ns3Helix.SocketRegistry Ns3Helix.SocketSimulation
open Ns3Helix.SocketTransparency Ns3Helix.SocketHistory Ns3Helix.NullCallback
open Ns3Helix.SystemProjection Ns3Helix.TransitionSystem
open Ns3Helix.StackMachine (Wiring)

variable {P : Platform} {M : UdpMachine P ℕ}
variable {tr : List (System P M × SystemLabel P)} {c c' : System P M} {f : ℕ ↪ ℕ}
  {d : Config P ℕ ℕ M}

@[simp] theorem socketLabels_nil : socketLabels ([] : List (System P M × SystemLabel P)) = [] := rfl

@[simp] theorem socketLabels_append (tr tr' : List (System P M × SystemLabel P)) :
    socketLabels (tr++tr') = socketLabels tr ++ socketLabels tr' := by
  simp [socketLabels]

@[simp] theorem socketLabels_single (c : System P M) (l : SystemLabel P) :
    socketLabels [(c,l)] = (socketLabel l).toList := by
  cases h : socketLabel l <;> simp [socketLabels,h]

section Populating

structure Serving (c : System P M) : Prop where
  idle : c.Idle
  runs : c.sockets.appRuns = true
  protocol : c.typeOf 2 = some .helixL4Protocol
  mNode : (c.helix 2).mNode = some 0
  udpSocketFactory : c.getObject 0 .udpSocketFactory = some 1
  factory : c.typeOf 1 = some .udpSocketFactory

theorem addHelix_serves : ∃ ts w, play Wiring.next .initial ([.create .node,
      .create .udpSocketFactory,.aggregate 0 1,.proceed,.proceed,.addHelix 0 none] ++
      List.replicate 10 .proceed) = some (ts,w) ∧ w.aborted = none ∧ w.tasks = [] ∧
    w.world.objects.typeOf 2 = some .helixL4Protocol ∧ (w.world.helix 2).mNode = some 0 ∧
    w.world.objects.getObject 0 .udpSocketFactory = some 1 ∧
    w.world.objects.typeOf 1 = some .udpSocketFactory :=
  ⟨_,_,rfl,rfl,rfl,rfl,rfl,rfl,rfl⟩

theorem socketLabels_wiring (c : System P M) (ts : List (Wiring × StackMachine.Event)) :
    socketLabels (ts.map fun x => ({ c with wiring := x.1 },(.stack x.2,.nothing))) = [] := by
  induction ts with
  | nil => rfl
  | cons x ts ih => simpa [socketLabels,socketLabel] using ih

theorem serving_runs (M : UdpMachine P ℕ) : ∃ tr c, Run Step (.initial M) tr c ∧
    socketLabels tr = [] ∧ Serving c ∧ c.nextSocket = 0 ∧ c.nextUdpSocket = 0 ∧
    ∀ s, (c.sockets.socket s).mUdpSocket = none := by
  obtain ⟨ts,w,hplay,halive,htasks,hprotocol,hnode,hudp,hfactory⟩ := addHelix_serves
  have hrun := play_runs (.initial M) _ rfl rfl hplay
  exact ⟨_,_,hrun,socketLabels_wiring _ ts,
    ⟨⟨halive,htasks,rfl⟩,rfl,hprotocol,hnode,hudp,hfactory⟩,rfl,rfl,fun _ => rfl⟩

def padded (c : System P M) (k : ℕ) : System P M :=
  { c with nextUdpSocket := c.nextUdpSocket+k }

theorem padded_runs (h : Serving c) (k : ℕ) :
    ∃ tr, Run Step c tr (padded c k) ∧ socketLabels tr = [] := by
  induction k with
  | zero => exact ⟨[],.nil,rfl⟩
  | succ k ih =>
    obtain ⟨tr,hrun,hlabels⟩ := ih
    have hlast : Step (padded c k) (.createUdpSocket 1,.created (padded c k).nextUdpSocket)
        (padded c (k+1)) := .createUdpSocket ⟨h.idle.alive,h.idle.tasks,h.idle.undisposed⟩
          h.runs h.factory
    exact ⟨_,.snoc hrun hlast,by simp [hlabels,socketLabel]⟩

theorem serving_padded (h : Serving c) (k : ℕ) : Serving (padded c k) :=
  ⟨⟨h.idle.alive,h.idle.tasks,h.idle.undisposed⟩,h.runs,h.protocol,h.mNode,h.udpSocketFactory,
    h.factory⟩

def enlarged (c : System P M) : System P M := (c.created 2 0).hold c.nextSocket

theorem enlarged_runs (h : Serving c) :
    Step c (.createSocket (.helix 2),.created c.nextSocket) (enlarged c) :=
  .created h.idle h.runs h.protocol (helixCreateSocket_runs c h.mNode h.udpSocketFactory)

theorem serving_enlarged (h : Serving c) : Serving (enlarged c) where
  idle := ⟨h.idle.alive,h.idle.tasks,h.idle.undisposed⟩
  runs := h.runs
  protocol := h.protocol
  mNode := by
    show ((c.created 2 0).helix 2).mNode = some 0
    rw [created_helix,if_pos rfl]
    exact h.mNode
  udpSocketFactory := h.udpSocketFactory
  factory := h.factory

structure Populated (f : ℕ ↪ ℕ) (N : ℕ) (c : System P M) : Prop where
  serving : Serving c
  next : c.nextSocket = N
  nextUdp : c.nextUdpSocket = f N
  held : ∀ s, s < N → s ∈ c.held
  owner : ∀ s u, (c.sockets.socket s).mUdpSocket = some u → f s = u

theorem populated_enlarged {N : ℕ} (h : Populated f N c) (hf : StrictMono f) :
    Populated f (N+1) (padded (enlarged c) (f (N+1)-(f N+1))) where
  serving := serving_padded (serving_enlarged h.serving) _
  next := congrArg (·+1) h.next
  nextUdp := by
    have hlt := hf (Nat.lt_add_one N)
    have hnext : (enlarged c).nextUdpSocket = f N+1 := congrArg (·+1) h.nextUdp
    show (enlarged c).nextUdpSocket + _ = _
    omega
  held s hs := by
    show s ∈ c.nextSocket :: c.held
    rcases Nat.lt_succ_iff_lt_or_eq.mp hs with hlt | rfl
    · exact List.mem_cons_of_mem _ (h.held s hlt)
    · simp [h.next]
  owner s u hu := by
    have hu' : ((c.created 2 0).sockets.socket s).mUdpSocket = some u := hu
    rw [created_socket] at hu'
    split at hu'
    next hs =>
      obtain rfl := Option.some.inj hu'
      rw [hs,h.next,h.nextUdp]
    next => exact h.owner s u hu'

theorem populated_runs (M : UdpMachine P ℕ) (hf : StrictMono f) (N : ℕ) :
    ∃ tr c, Run Step (.initial M) tr c ∧ socketLabels tr = [] ∧ Populated f N c := by
  induction N with
  | zero =>
    obtain ⟨tr,c,hrun,hlabels,hserving,hnext,hudp,hnone⟩ := serving_runs M
    obtain ⟨tr',hpad,hlabels'⟩ := padded_runs hserving (f 0)
    refine ⟨_,_,run_append hrun hpad,by simp [hlabels,hlabels'],serving_padded hserving _,hnext,
      ?_,fun s hs => absurd hs (Nat.not_lt_zero s),fun s u hu => ?_⟩
    · show c.nextUdpSocket + f 0 = f 0
      omega
    · cases (hnone s).symm.trans hu
  | succ N ih =>
    obtain ⟨tr,c,hrun,hlabels,h⟩ := ih
    obtain ⟨tr',hpad,hlabels'⟩ :=
      padded_runs (serving_enlarged h.serving) (f (N+1)-(f N+1))
    have hnew := run_then hrun _ (enlarged_runs h.serving)
    refine ⟨_,_,run_append hnew hpad,?_,populated_enlarged h hf⟩
    rw [socketLabels_append,socketLabels_append,hlabels,hlabels']
    rfl

end Populating

section Realizing

def Below (N : ℕ) : Action P ℕ ℕ → Prop
  | .call (.helix s) _ => s < N
  | .inherited (.helix s) _ => s < N
  | .call (.udp u) _ => u < N
  | .inherited (.udp u) _ => u < N
  | _ => True

theorem below_mono {N N' : ℕ} (h : N ≤ N') {a : Action P ℕ ℕ} (ha : Below N a) : Below N' a := by
  cases a with
  | call s o => cases s <;> exact Nat.lt_of_lt_of_le ha h
  | inherited s i => cases s <;> exact Nat.lt_of_lt_of_le ha h
  | callbackReturn => trivial
  | udp move => trivial

theorem below_exists (a : Action P ℕ ℕ) : ∃ N, Below N a := by
  cases a with
  | call s o =>
    cases s with
    | helix s => exact ⟨s+1,Nat.lt_succ_self s⟩
    | udp u => exact ⟨u+1,Nat.lt_succ_self u⟩
  | inherited s i =>
    cases s with
    | helix s => exact ⟨s+1,Nat.lt_succ_self s⟩
    | udp u => exact ⟨u+1,Nat.lt_succ_self u⟩
  | callbackReturn => exact ⟨0,trivial⟩
  | udp move => exact ⟨0,trivial⟩

/-- Finitely many actions mention finitely many sockets. -/
theorem below_bound (ls : List (Label P ℕ ℕ)) : ∃ N, ∀ l ∈ ls, Below N l.1 := by
  induction ls with
  | nil => exact ⟨0,by simp⟩
  | cons l ls ih =>
    obtain ⟨N,hN⟩ := ih
    obtain ⟨N',hN'⟩ := below_exists l.1
    refine ⟨max N N',fun k hk => ?_⟩
    rcases List.mem_cons.mp hk with rfl | hk
    · exact below_mono (Nat.le_max_right N N') hN'
    · exact below_mono (Nat.le_max_left N N') (hN k hk)

/-- The system holds a reference to each of its first `N` sockets and can do
what the machine does with them. -/
structure Realizes (f : ℕ ↪ ℕ) (N : ℕ) (d : Config P ℕ ℕ M) (c : System P M) : Prop where
  projects : Projects f c d
  fits : Fits f c
  idle : c.Idle
  next : c.nextSocket = N
  nextUdp : N ≤ c.nextUdpSocket
  held : ∀ s, s < N → s ∈ c.held

variable {N : ℕ} {a : Action P ℕ ℕ}

theorem realizes_refers (h : Realizes f N d c) (ha : Below N a) : c.Refers a := by
  cases a with
  | call s o =>
    cases s with
    | helix s => exact .inl (h.held s ha)
    | udp u => exact Nat.lt_of_lt_of_le ha h.nextUdp
  | inherited s i =>
    cases s with
    | helix s => exact .inl (h.held s ha)
    | udp u => exact Nat.lt_of_lt_of_le ha h.nextUdp
  | callbackReturn => trivial
  | udp move => trivial

theorem realizes_admits (h : Realizes f N d c) (hadmits : d.Admits a) : c.sockets.Admits a := by
  have free : ∀ u, (∀ s, (d.socket s).mUdpSocket ≠ some u) →
      ∀ s, (c.sockets.socket s).mUdpSocket ≠ some u := by
    intro u hnone s hs
    apply hnone s
    rw [projects_owner h.projects h.fits s,h.fits.owner s u hs]
  cases a with
  | call s o =>
    cases s with
    | helix s => trivial
    | udp u => exact free u hadmits
  | inherited s i =>
    cases s with
    | helix s => trivial
    | udp u => exact free u hadmits
  | callbackReturn => trivial
  | udp move => trivial

theorem realizes_step (h : Realizes f N d c) (ha : Below N a) {seen : Seen P ℕ ℕ}
    {y : Config P ℕ ℕ M} (hstep : SocketMachine.Step M d (a,seen) y) :
    ∃ c', Step c (.socket a,.socket seen) c' ∧ Realizes f N y c' := by
  have hrefers := realizes_refers h ha
  have hlive := refers_onLive h.projects.numbered hrefers
  have hinhabited := projects_inhabited h.projects
  obtain ⟨hadmits,s,hmoves,hexec⟩ := hstep
  have hsimilar := similar_flip (similar_machine h.projects.similar s)
  -- the methods in progress and the trampolines are those of the system
  have hinhabited' : Inhabited (Born c) (d.withMachine s) := by
    refine ⟨fun g hg => hinhabited.stack g ?_,fun u t target ht => hinhabited.owner u t target ?_⟩
    · rw [show c.sockets.stack = d.stack from h.projects.similar.stack]
      exact hg
    · rw [show c.sockets.udp = d.udp from h.projects.similar.udp]
      exact ht
  obtain ⟨r,hr,_⟩ := exec_similar (respects_flip respects_eq) hsimilar hinhabited' hlive hexec
  have hmoves' : Moves M c.sockets.machine a s := h.projects.similar.machine ▸ hmoves
  have hadmits' := realizes_admits h hadmits
  obtain ⟨q,hq,hseen,hprojects⟩ := projects_exec h.projects hrefers hadmits' hmoves' hr
  obtain rfl : q = (y,seen) := Option.some.inj (hq.symm.trans hexec)
  have hstep' : Step c (.socket a,.socket seen) { c with sockets := r.1 } := by
    refine .socket h.idle hrefers ⟨hadmits',s,hmoves',?_⟩
    rw [hr,← show r.2 = seen from hseen]
  refine ⟨_,hstep',hprojects,⟨fun g u hu => ?_,h.fits.later⟩,
    ⟨h.idle.alive,h.idle.tasks,h.idle.undisposed⟩,h.next,h.nextUdp,h.held⟩
  obtain ⟨hsocket,_,_⟩ := Config.exec_after
    (show (c.sockets.withMachine s).Echoing from h.projects.paired.echoing) hr
  apply h.fits.owner g u
  rw [show (c.sockets.socket g).mUdpSocket = _ from (socketAfter_udpSocket _ a g).symm]
  exact (congrArg (fun x => (x g).mUdpSocket) hsocket).symm.trans hu

theorem realizes_run (h : Realizes f N d c) {tr' : List (Config P ℕ ℕ M × Label P ℕ ℕ)}
    {y : Config P ℕ ℕ M} (hrun : Run (SocketMachine.Step M) d tr' y)
    (hbelow : ∀ l ∈ labels tr', Below N l.1) :
    ∃ tr c', Run Step c tr c' ∧ socketLabels tr = labels tr' ∧ Realizes f N y c' := by
  induction hrun with
  | nil => exact ⟨[],c,.nil,rfl,h⟩
  | @snoc tr' t u l run last ih =>
    obtain ⟨tr,c',hrun',hlabels,hrealizes⟩ := ih fun k hk => hbelow k (by simp [hk])
    obtain ⟨c'',hstep,hrealizes'⟩ := realizes_step hrealizes (hbelow l (by simp)) last
    refine ⟨_,c'',.snoc hrun' hstep,?_,hrealizes'⟩
    rw [socketLabels_append,hlabels,socketLabels_single,labels_append]
    rfl

end Realizing

section Exactness

theorem run_unlabelled {d y : Config P ℕ ℕ M} {tr' : List (Config P ℕ ℕ M × Label P ℕ ℕ)}
    (hrun : Run (SocketMachine.Step M) d tr' y) (hlabels : labels tr' = []) : y = d := by
  cases hrun with
  | nil => rfl
  | snoc run last => simp at hlabels

theorem populated_realizes {N : ℕ} (hrun : Run Step (.initial M) tr c)
    (hlabels : socketLabels tr = []) (h : Populated f N c) (hf : StrictMono f) :
    Realizes f N (SocketMachine.initial M f) c := by
  have hfits : Fits f c := by
    refine ⟨h.owner,fun s hs => ?_⟩
    rw [h.nextUdp]
    exact hf.monotone (h.next ▸ hs)
  obtain ⟨tr',d,hrun',hlabels',hprojects⟩ := run_projects_named hrun hfits
  obtain rfl := run_unlabelled hrun' (hlabels'.trans hlabels)
  refine ⟨hprojects,hfits,h.serving.idle,h.next,?_,h.held⟩
  rw [h.nextUdp]
  exact hf.le_apply

theorem system_traces (M : UdpMachine P ℕ) (hf : StrictMono f) (ls : List (Label P ℕ ℕ)) :
    (∃ tr c, Run Step (.initial M) tr c ∧ Fits f c ∧ socketLabels tr = ls) ↔
      Traces (SocketMachine.Step M) (SocketMachine.initial M f) ls := by
  constructor
  · rintro ⟨tr,c,hrun,hfits,rfl⟩
    obtain ⟨tr',d,hrun',hlabels,_⟩ := run_projects_named hrun hfits
    exact ⟨tr',d,hrun',hlabels⟩
  · rintro ⟨tr',y,hrun',rfl⟩
    obtain ⟨N,hN⟩ := below_bound (labels tr')
    obtain ⟨tr,c,hrun,hlabels,hpopulated⟩ := populated_runs M hf N
    have hrealizes := populated_realizes hrun hlabels hpopulated hf
    obtain ⟨tr₂,c',hrun₂,hlabels₂,h⟩ := realizes_run hrealizes hrun' hN
    exact ⟨_,c',run_append hrun hrun₂,h.fits,by rw [socketLabels_append,hlabels,hlabels₂]; rfl⟩

/-- UDP sockets are numbered in the order of the Helix sockets around them, and
for every such numbering the sockets of a system show what the machine of
sockets shows: no less and no more. -/
theorem system_sockets_exact (M : UdpMachine P ℕ) :
    (∀ tr c, Run Step (.initial M) tr c → ∃ f : ℕ ↪ ℕ, StrictMono f ∧ Fits f c) ∧
    ∀ f : ℕ ↪ ℕ, StrictMono f → ∀ ls,
      (∃ tr c, Run Step (.initial M) tr c ∧ Fits f c ∧ socketLabels tr = ls) ↔
        Traces (SocketMachine.Step M) (SocketMachine.initial M f) ls :=
  ⟨fun _ _ hrun => fits_exists (run_paired hrun) (run_ordered hrun),
    fun _ hf ls => system_traces M hf ls⟩

theorem renames_unique {l l' k : Label P ℕ ℕ} (h : Renames f l k) (h' : Renames f l' k) :
    l = l' := by
  obtain ⟨a,seen⟩ := l
  obtain ⟨a',seen'⟩ := l'
  obtain ⟨b,shown⟩ := k
  obtain ⟨haction,hseen⟩ := h
  obtain ⟨haction',hseen'⟩ := h'
  have same : a = a' := by
    cases haction with
    | call s o ho =>
      generalize hu : f s = u at haction'
      cases haction' with
      | call s' o' ho' => rw [f.injective hu]
    | callbackReturn => cases haction'; rfl
    | udp move => cases haction'; rfl
  have shows : seen = seen' := by
    cases hseen with
    | nothing => cases hseen'; rfl
    | returned s v =>
      generalize hu : f s = u at hseen'
      cases hseen' with
      | returned s' v' => rw [f.injective hu]
    | invoked cb s e =>
      generalize hu : f s = u at hseen'
      cases hseen' with
      | invoked cb' s' e' => rw [f.injective hu]
    | stamped tags => cases hseen'; rfl
    | informed tags => cases hseen'; rfl
  exact Prod.ext same shows

theorem forall_renames_unique {ls ls' ks : List (Label P ℕ ℕ)}
    (h : List.Forall₂ (Renames f) ls ks) (h' : List.Forall₂ (Renames f) ls' ks) : ls = ls' := by
  induction h generalizing ls' with
  | nil =>
    cases h'
    rfl
  | cons hl _ ih =>
    cases h' with
    | cons hl' hrest => rw [renames_unique hl hl',ih hrest]

/-- An application that uses the Helix sockets of a system sees what it would
see of UDP sockets alone, with every socket under another name. -/
theorem system_transparent (M : UdpMachine P ℕ) (hf : StrictMono f) {ls : List (Label P ℕ ℕ)}
    (hls : ∀ l ∈ ls, HelixUse l.1) :
    (∃ tr c, Run Step (.initial M) tr c ∧ Fits f c ∧ socketLabels tr = ls) ↔
      ∃ ks, Traces (SocketMachine.Step M) (bare M) ks ∧ (∀ k ∈ ks, UdpUse f k.1) ∧
        List.Forall₂ (Renames f) ls ks := by
  rw [system_traces M hf ls]
  have hbisimilar := bisimulation_traces (mirrors_bisimulation M f) (mirrors_initial f)
  constructor
  · intro htrace
    exact hbisimilar.1 ls htrace hls
  · rintro ⟨ks,htrace,huse,hrenames⟩
    obtain ⟨ls',htrace',_,hrenames'⟩ := hbisimilar.2 ks htrace huse
    rw [forall_renames_unique hrenames hrenames']
    exact htrace'

/-- A socket of a system is closed, as a UDP socket would be. -/
theorem closed_socket_transparent : ∃ tr c,
    Run Step (.initial (.silent : UdpMachine .unit ℕ)) tr c ∧ Fits (.refl ℕ) c ∧
      socketLabels tr = [(.call (.helix 0) .close,.nothing)] := by
  have start : Run (SocketMachine.Step (η := ℕ) .silent) (bare (.silent : UdpMachine .unit ℕ))
    [] _ := .nil
  have closing := run_then start (.call (.udp 0) .close,.nothing) ⟨by simp [Config.Admits,bare,
    HelixSocketImpl.fresh],_,rfl,rfl⟩
  refine (system_transparent .silent strictMono_id (by simp [HelixUse,Op.NonNull])).mpr
    ⟨_,⟨_,_,closing,rfl⟩,?_,.cons ⟨.call 0 .close trivial,.nothing⟩ .nil⟩
  intro k hk
  obtain rfl := List.mem_singleton.mp hk
  exact ⟨⟨0,rfl⟩,trivial⟩

end Exactness

section Crashes

variable {l : SystemLabel P}

theorem run_tracked (hrun : Run Step (.initial M) tr c) (hf : Fits f c) :
    ∃ d, Projects f c d ∧ Tracks f (socketLabels tr) d := by
  obtain ⟨tr',d,hrun',hlabels,hprojects⟩ := run_projects_named hrun hf
  exact ⟨d,hprojects,hlabels ▸ run_tracks hrun'⟩

theorem registered_owner {d : Config P ℕ ℕ M} {ls : List (Label P ℕ ℕ)} (h : Projects f c d)
    (ht : Tracks f ls d) {s : ℕ} {e : Event} (hr : (history s ls).registered e ≠ none) :
    (c.sockets.socket s).mUdpSocket = some (f s) := by
  apply h.paired.carries
  rw [h.similar.udp]
  have hholds := ht.holds s
  cases e with
  | recv =>
    obtain ⟨r,hr⟩ := Option.ne_none_iff_exists'.mp hr
    have hrecv : (history s ls).recv = some r := hr
    exact ⟨.recv,.handleRecv s,by rw [hholds.udpRecv,hrecv]; rfl,rfl⟩
  | send n =>
    obtain ⟨r,hr⟩ := Option.ne_none_iff_exists'.mp hr
    have hsend : (history s ls).send = some r := hr
    exact ⟨.send,.handleSend s,by rw [hholds.udpSend,hsend]; rfl,rfl⟩
  | connectionSucceeded | connectionFailed | normalClose | errorClose | dataSent n =>
    exact absurd rfl hr

/-- An event is raised on the UDP socket of a Helix socket whose callback for
it was last registered as null. -/
def Unguarded (c : System P M) (ls : List (Label P ℕ ℕ)) (a : Action P ℕ ℕ) : Prop :=
  ∃ u e s, a = .udp (.raise u e) ∧ (c.sockets.socket s).mUdpSocket = some u ∧ Deregistered s ls e

theorem step_answered (hrun : Run Step (.initial M) tr c) {a : Action P ℕ ℕ} {seen : Seen P ℕ ℕ}
    (hstep : Step c (.socket a,.socket seen) c') :
    ∃ (f : ℕ ↪ ℕ) (d : Config P ℕ ℕ M), Fits f c ∧ Projects f c d ∧
      Tracks f (socketLabels tr) d ∧
      (∀ s e, a = .udp (.raise (f s) e) → seen = (history s (socketLabels tr)).answer s e) ∧
      ∀ k, seen = .crashed k → ∃ s e, a = .udp (.raise (f s) e) := by
  obtain ⟨f,_,hf⟩ := fits_exists (run_paired hrun) (run_ordered hrun)
  obtain ⟨d,hprojects,htracks⟩ := run_tracked hrun hf
  obtain ⟨x,hrefers,hs,_⟩ := step_socketLabel hstep rfl
  obtain ⟨y,⟨_,t,_,hexec⟩,_⟩ := projects_socket hprojects hf hrefers hs
  have htracks' := tracks_machine htracks t
  refine ⟨f,d,hf,hprojects,htracks,?_,fun k hk => crash_raise htracks' hexec hk⟩
  rintro s e rfl
  rw [← raise_answer htracks' s e,Config.exec_raise hexec]

theorem answer_crashed {H : History P} {s : ℕ} {e : Event} {k : Fault}
    (h : (.crashed k : Seen P ℕ ℕ) = H.answer s e) :
    k = .nullCallback ∧ H.registered e = some none := by
  rw [History.answer] at h
  rcases hr : H.registered e with _ | _ | cb
  · rw [hr] at h
    cases h
  · rw [hr] at h
    cases h
    exact ⟨rfl,rfl⟩
  · rw [hr] at h
    cases h

/-- A method of a socket crashes at an unguarded event and nowhere else. -/
theorem step_crash_iff (hrun : Run Step (.initial M) tr c) {a : Action P ℕ ℕ} {seen : Seen P ℕ ℕ}
    (hstep : Step c (.socket a,.socket seen) c') :
    (∃ k, seen = .crashed k) ↔ Unguarded c (socketLabels tr) a := by
  obtain ⟨f,d,hf,hprojects,htracks,answered,raised⟩ := step_answered hrun hstep
  constructor
  · rintro ⟨k,hk⟩
    obtain ⟨s,e,rfl⟩ := raised k hk
    obtain ⟨_,hd⟩ := answer_crashed (hk ▸ answered s e rfl)
    have hset : (history s (socketLabels tr)).registered e ≠ none := by
      rw [hd]
      simp
    exact ⟨f s,e,s,rfl,registered_owner hprojects htracks hset,hd⟩
  · rintro ⟨u,e,s,rfl,howner,hd⟩
    obtain rfl := hf.owner s u howner
    rw [answered s e rfl,History.answer,show (history s (socketLabels tr)).registered e = _ from hd]
    exact ⟨_,rfl⟩

theorem step_fault (hrun : Run Step (.initial M) tr c) {a : Action P ℕ ℕ} {k : Fault}
    (hstep : Step c (.socket a,.socket (.crashed k)) c') : k = .nullCallback := by
  obtain ⟨f,d,_,_,_,answered,raised⟩ := step_answered hrun hstep
  obtain ⟨s,e,rfl⟩ := raised k rfl
  exact (answer_crashed (answered s e rfl)).1

/-- In a system no null pointer to a UDP socket is ever followed, a step of a
socket invokes a null callback exactly if an unguarded event is raised, and a
run is free of crashes exactly if none is. -/
theorem system_crash_free_iff (hrun : Run Step (.initial M) tr c) :
    (∀ pre t a seen post, tr = pre++(t,(.socket a,.socket seen))::post →
      seen ≠ .crashed .nullSocket ∧
      (seen = .crashed .nullCallback ↔ Unguarded t (socketLabels pre) a)) ∧
    ((∀ e ∈ tr, ∀ k, e.2.2 ≠ .socket (.crashed k)) ↔
      ∀ pre t a x post, tr = pre++(t,(.socket a,x))::post →
        ¬ Unguarded t (socketLabels pre) a) := by
  have each : ∀ pre t a seen post, tr = pre++(t,(.socket a,.socket seen))::post →
      seen ≠ .crashed .nullSocket ∧
      (seen = .crashed .nullCallback ↔ Unguarded t (socketLabels pre) a) := by
    rintro pre t a seen post rfl
    obtain ⟨hpre,t',hstep,_⟩ := run_at pre post hrun
    refine ⟨?_,fun hk => (step_crash_iff hpre hstep).mp ⟨_,hk⟩,fun hraised => ?_⟩
    · rintro rfl
      cases step_fault hpre hstep
    · obtain ⟨k,rfl⟩ := (step_crash_iff hpre hstep).mpr hraised
      rw [step_fault hpre hstep]
  refine ⟨each,fun hsafe pre t a x post htr hraised => ?_,fun hguarded e hmem k hk => ?_⟩
  · subst htr
    obtain ⟨hpre,t',hstep,_⟩ := run_at pre post hrun
    cases id hstep with
    | @socket _ _ seen _ _ _ =>
      obtain ⟨k,rfl⟩ := (step_crash_iff hpre hstep).mpr hraised
      exact hsafe _ (List.mem_append_right _ (List.mem_cons_self ..)) k rfl
  · obtain ⟨pre,post,rfl⟩ := List.append_of_mem hmem
    obtain ⟨t,a,x⟩ := e
    obtain rfl : x = .socket (.crashed k) := hk
    obtain ⟨hpre,t',hstep,_⟩ := run_at pre post hrun
    cases id hstep with
    | socket _ _ _ =>
      exact hguarded pre t _ _ post rfl ((step_crash_iff hpre hstep).mp ⟨k,rfl⟩)

/-- A callback is registered on a new socket and an event is delivered to it;
then it is taken away, and the next event crashes. -/
theorem unguarded_event_crashes : ∃ tr c,
    Run Step (.initial (arbitrary : UdpMachine .unit ℕ)) tr c ∧
    socketLabels tr = [(.call (.helix 0) (.setRecvCallback (some ())),.nothing),
      (.udp (.raise 0 .recv),.invoked () (.helix 0) .recv),
      (.call (.helix 0) (.setRecvCallback none),.nothing),
      (.udp (.raise 0 .recv),.crashed .nullCallback)] ∧
    ¬ ∀ pre t a x post, tr = pre++(t,(.socket a,x))::post →
      ¬ Unguarded t (socketLabels pre) a := by
  have wired := play_runs (.initial (arbitrary : UdpMachine .unit ℕ))
    ([.create .node,.create .udpSocketFactory,.aggregate 0 1,.proceed,.proceed,
      .addHelix 0 none] ++ List.replicate 10 .proceed) rfl rfl rfl
  have created := run_then wired (.createSocket (.helix 2),.created 0)
    (.created ⟨rfl,rfl,rfl⟩ rfl rfl rfl)
  have registered := run_then created
    (.socket (.call (.helix 0) (.setRecvCallback (some ()))),.socket .nothing)
    (.socket ⟨rfl,rfl,rfl⟩ (.inl (by decide)) ⟨trivial,(),rfl,rfl⟩)
  have delivered := run_then registered
    (.socket (.udp (.raise 0 .recv)),.socket (.invoked () (.helix 0) .recv))
    (.socket ⟨rfl,rfl,rfl⟩ trivial ⟨trivial,(),trivial,rfl⟩)
  have deregistered := run_then delivered
    (.socket (.call (.helix 0) (.setRecvCallback none)),.socket .nothing)
    (.socket ⟨rfl,rfl,rfl⟩ (.inl (by decide)) ⟨trivial,(),rfl,rfl⟩)
  have hrun := run_then deregistered
    (.socket (.udp (.raise 0 .recv)),.socket (.crashed .nullCallback))
    (.socket ⟨rfl,rfl,rfl⟩ trivial ⟨trivial,(),trivial,rfl⟩)
  refine ⟨_,_,hrun,rfl,fun hguarded => ?_⟩
  exact (system_crash_free_iff hrun).2.mpr hguarded _ (List.mem_append_right _ List.mem_cons_self)
    .nullCallback rfl

end Crashes

end Ns3Helix.SystemRealization
