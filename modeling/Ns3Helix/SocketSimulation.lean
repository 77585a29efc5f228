import Ns3Helix.SocketSteps

/-!
# What a step cannot tell apart

No method reads the node or the protocol of its socket, and nothing but the
UDP layer looks at the state of that layer. Two configurations that agree on
everything else, for the sockets in use, take the same steps. The two UDP
layers may be different machines as long as one follows the other.
-/

set_option autoImplicit false

namespace Ns3Helix.SocketSimulation
open Ns3Helix.InteractionProgram Ns3Helix.SocketInterface Ns3Helix.SocketImpl
open Ns3Helix.SocketMachine

variable {P : Platform} {η ι : Type} {M M' : UdpMachine P ι}

structure Alike (w w' : HelixSocketImpl P ι) : Prop where
  udpSocket : w.mUdpSocket = w'.mUdpSocket
  handleRecv : w.mHandleRecv = w'.mHandleRecv
  handleSend : w.mHandleSend = w'.mHandleSend
  base : w.base = w'.base

theorem alike_refl (w : HelixSocketImpl P ι) : Alike w w := ⟨rfl,rfl,rfl,rfl⟩

def AlikeFields (x y : Fields P ι) : Prop := Alike x.1 y.1 ∧ x.2 = y.2

theorem fields_alike (o : FieldOp P) (x y : Fields P ι) (h : AlikeFields x y) :
    Answered AlikeFields (fields P ι o x) (fields P ι o y) := by
  obtain ⟨⟨node,udpSocket,helix,handleRecv,handleSend,base⟩,out⟩ := x
  obtain ⟨⟨node',udpSocket',helix',handleRecv',handleSend',base'⟩,out'⟩ := y
  obtain ⟨⟨h1,h2,h3,h4⟩,h5⟩ := h
  dsimp only at h1 h2 h3 h4 h5
  subst h1 h2 h3 h4 h5
  cases o with
  | getUdpSocket =>
    cases udpSocket with
    | none => exact .error _
    | some u => exact .ok u ⟨⟨rfl,rfl,rfl,rfl⟩,rfl⟩
  | callee cb =>
    cases cb with
    | none => exact .error _
    | some f => exact .ok f ⟨⟨rfl,rfl,rfl,rfl⟩,rfl⟩
  | getHandleRecv | getHandleSend | setHandleRecv | setHandleSend | print =>
    exact .ok _ ⟨⟨rfl,rfl,rfl,rfl⟩,rfl⟩

structure Respects (rel : M.State → M'.State → Prop) : Prop where
  enter : ∀ {s t}, rel s t → ∀ u o, rel (M.enter s u o) (M'.enter t u o)
  resume : ∀ {s t}, rel s t → rel (M.resume s) (M'.resume t)

theorem respects_eq : Respects (Eq : M.State → M.State → Prop) where
  enter h _ _ := by rw [h]
  resume h := by rw [h]

theorem respects_flip {rel : M.State → M'.State → Prop} (h : Respects rel) :
    Respects (flip rel) where
  enter hs u o := h.enter hs u o
  resume hs := h.resume hs

/-- Two configurations with the same UDP sockets and the same calls in
progress, and with live Helix sockets that are alike. -/
structure Similar (rel : M.State → M'.State → Prop) (live : η → Prop) (c : Config P η ι M)
    (d : Config P η ι M') : Prop where
  machine : rel c.machine d.machine
  udp : c.udp = d.udp
  stack : c.stack = d.stack
  printed : c.printed = d.printed
  socket : ∀ h, live h → Alike (c.socket h) (d.socket h)

def Frame.Within (live : η → Prop) : Frame P η ι → Prop
  | .udp _ _ (some w) => live w.socket
  | .app (some w) => live w.socket
  | _ => True

structure Inhabited (live : η → Prop) (c : Config P η ι M) : Prop where
  stack : ∀ f ∈ c.stack, Frame.Within live f
  owner : ∀ u s target, (c.udp u).callback s = some target →
    ∀ h, target.owner = some h → live h

def OnLive (live : η → Prop) : Action P η ι → Prop
  | .call (.helix h) _ => live h
  | .inherited (.helix h) _ => live h
  | _ => True

structure Matched (rel : M.State → M'.State → Prop) (live : η → Prop)
    (r : Config P η ι M × Seen P η ι) (q : Config P η ι M' × Seen P η ι) : Prop where
  similar : Similar rel live r.1 q.1
  seen : r.2 = q.2
  stack : ∀ f ∈ r.1.stack, Frame.Within live f

section Steps

variable {rel : M.State → M'.State → Prop} {live : η → Prop} {c : Config P η ι M}
  {d : Config P η ι M'}

theorem similar_flip (h : Similar rel live c d) : Similar (flip rel) live d c where
  machine := h.machine
  udp := h.udp.symm
  stack := h.stack.symm
  printed := h.printed.symm
  socket s hs := by
    obtain ⟨h1,h2,h3,h4⟩ := h.socket s hs
    exact ⟨h1.symm,h2.symm,h3.symm,h4.symm⟩

theorem similar_push (h : Similar rel live c d) (f : Frame P η ι) :
    Similar rel live (c.push f) (d.push f) :=
  { h with stack := congrArg (f :: ·) h.stack }

theorem similar_unwind (h : Similar rel live c d) (rest : List (Frame P η ι)) :
    Similar rel live (c.unwind rest) (d.unwind rest) := { h with stack := rfl }

theorem similar_resume (hrel : Respects rel) (h : Similar rel live c d) :
    Similar rel live c.resume d.resume := { h with machine := hrel.resume h.machine }

theorem similar_appRuns (h : Similar rel live c d) : c.appRuns = d.appRuns := by
  rw [Config.appRuns,Config.appRuns,h.stack]

theorem similar_udpRuns (h : Similar rel live c d) : c.udpRuns = d.udpRuns := by
  rw [Config.udpRuns,Config.udpRuns,h.stack]

theorem within_push {f : Frame P η ι} (hstack : ∀ g ∈ c.stack, Frame.Within live g)
    (hf : Frame.Within live f) : ∀ g ∈ (c.push f).stack, Frame.Within live g := by
  intro g hg
  rcases List.mem_cons.mp hg with rfl | hg
  · exact hf
  · exact hstack g hg

theorem matched_giveBack (hrel : Respects rel) (h : Similar rel live c d)
    (hstack : ∀ f ∈ c.stack, Frame.Within live f) (s : SocketRef η ι) (v : Val P) :
    Matched rel live (c.giveBack s v) (d.giveBack s v) := by
  unfold Config.giveBack
  rw [← similar_appRuns h]
  split
  · exact ⟨h,rfl,hstack⟩
  · exact ⟨similar_resume hrel h,rfl,hstack⟩

variable [DecidableEq η] [DecidableEq ι]

omit [DecidableEq ι] in
theorem similar_store (h : Similar rel live c d) (g : η) {x y : Fields P ι}
    (hxy : AlikeFields x y) : Similar rel live (c.store g x) (d.store g y) where
  machine := h.machine
  udp := h.udp
  stack := h.stack
  printed := hxy.2
  socket g' hg' := by
    by_cases hg : g' = g
    · subst hg
      simpa [Config.store,Config.setSocket] using hxy.1
    · simpa [Config.store,Config.setSocket,hg] using h.socket g' hg'

omit [DecidableEq η] in
theorem similar_enterUdp (hrel : Respects rel) (h : Similar rel live c d) (u : ι)
    (o : Op P (Target P.AppCallback η)) (caller : Option (Waiting P η ι o.ty)) :
    Similar rel live (c.enterUdp u o caller) (d.enterUdp u o caller) where
  machine := hrel.enter h.machine u o.erase
  udp := by
    show Function.update c.udp u _ = Function.update d.udp u _
    rw [h.udp]
  stack := congrArg (Frame.udp u o.ty caller :: ·) h.stack
  printed := h.printed
  socket := h.socket

theorem matched_run (hrel : Respects rel) (h : Similar rel live c d)
    (hstack : ∀ f ∈ c.stack, Frame.Within live f) {g : η} (hg : live g) (t : Ty)
    (m : SocketM P η ι (t.denote P)) : Matched rel live (c.run g t m) (d.run g t m) := by
  have hstart : AlikeFields (c.socket g,c.printed) (d.socket g,d.printed) :=
    ⟨h.socket g hg,h.printed⟩
  have hout := advance_related fields_alike m hstart
  unfold Config.run
  generalize advance (fields P ι) m (c.socket g,c.printed) = a at hout
  generalize advance (fields P ι) m (d.socket g,d.printed) = b at hout
  cases hout with
  | done hxy v => exact matched_giveBack hrel (similar_store h g hxy) hstack (.helix g) ⟨t,v⟩
  | fault e => exact ⟨similar_push h .dead,rfl,within_push hstack trivial⟩
  | suspended hxy o k =>
    have hstored := similar_store h g hxy
    cases o with
    | udp u o =>
      exact ⟨similar_enterUdp hrel hstored u o _,rfl,
        within_push (f := .udp u o.ty (some ⟨g,t,k⟩)) hstack hg⟩
    | invoke cb s e =>
      exact ⟨similar_push hstored _,rfl,within_push (f := .app (some ⟨g,t,k⟩)) hstack hg⟩

theorem matched_call (hrel : Respects rel) (h : Similar rel live c d)
    (hstack : ∀ f ∈ c.stack, Frame.Within live f) (s : SocketRef η ι)
    (o : Op P (fun _ => P.AppCallback)) (hs : OnLive live (.call s o : Action P η ι)) :
    Matched rel live (c.call s o) (d.call s o) := by
  cases s with
  | helix g => exact matched_run hrel h hstack hs o.ty (method g o)
  | udp u =>
    exact ⟨similar_enterUdp hrel h u (appOp o) none,rfl,
      within_push (f := .udp u (appOp (η := η) o).ty none) hstack trivial⟩

theorem matched_inherited (h : Similar rel live c d)
    (hstack : ∀ f ∈ c.stack, Frame.Within live f) (s : SocketRef η ι)
    (i : Inherited (fun _ => P.AppCallback)) (hs : OnLive live (.inherited s i : Action P η ι)) :
    Matched rel live (c.inherited s i) (d.inherited s i) := by
  cases s with
  | udp u =>
    refine ⟨⟨h.machine,?_,h.stack,h.printed,h.socket⟩,?_,hstack⟩
    · show Function.update c.udp u _ = Function.update d.udp u _
      rw [h.udp]
    · simp only [Config.inherited,h.udp]
  | helix g =>
    have halike := h.socket g hs
    refine ⟨⟨h.machine,h.udp,h.stack,h.printed,fun g' hg' => ?_⟩,?_,hstack⟩
    · by_cases hg : g' = g
      · subst hg
        have hbase : i.effect (c.socket g').base = i.effect (d.socket g').base := by
          rw [halike.base]
        simpa [Config.inherited,Config.setSocket] using { halike with base := hbase }
      · simpa [Config.inherited,Config.setSocket,hg] using h.socket g' hg'
    · simp only [Config.inherited,halike.base]

theorem matched_raise (hrel : Respects rel) (h : Similar rel live c d) (hlive : Inhabited live c)
    (u : ι) (e : Event) : Matched rel live (c.raise u e) (d.raise u e) := by
  have hsame : (d.udp u).callback e.slot = (c.udp u).callback e.slot := by rw [h.udp]
  unfold Config.raise
  rw [hsame]
  cases hcb : (c.udp u).callback e.slot with
  | none => exact ⟨h,rfl,hlive.stack⟩
  | some target =>
    dsimp only
    cases htramp : trampoline (.udp u) e target with
    | inl cb => exact ⟨similar_push h _,rfl,within_push hlive.stack trivial⟩
    | inr x =>
      have howner : target.owner = some x.1 := by
        cases e <;> cases target <;> cases htramp <;> rfl
      exact matched_run hrel h hlive.stack (hlive.owner u e.slot target hcb x.1 howner) .void x.2

theorem matched_handOver (hrel : Respects rel) (h : Similar rel live c d)
    (hstack : ∀ f ∈ c.stack, Frame.Within live f) (s : SocketRef η ι) (t : Ty) (v : t.denote P)
    (caller : Option (Waiting P η ι t)) (hw : ∀ w ∈ caller, live w.socket) :
    Matched rel live (c.handOver s t v caller) (d.handOver s t v caller) := by
  cases caller with
  | none => exact matched_giveBack hrel h hstack s ⟨t,v⟩
  | some w => exact matched_run hrel h hstack (hw w rfl) w.result (w.rest v)

/-- An action does the same to similar configurations. -/
theorem exec_similar (hrel : Respects rel) (h : Similar rel live c d) (hlive : Inhabited live c)
    {a : Action P η ι} (ha : OnLive live a) {r : Config P η ι M × Seen P η ι}
    (hexec : c.exec a = some r) : ∃ q, d.exec a = some q ∧ Matched rel live r q := by
  have happ := similar_appRuns h
  have hudp := similar_udpRuns h
  cases Config.exec_executes hexec with
  | call s o runs =>
    exact ⟨_,if_pos (happ ▸ runs),matched_call hrel h hlive.stack s o ha⟩
  | inherited s i runs =>
    exact ⟨_,if_pos (happ ▸ runs),matched_inherited h hlive.stack s i ha⟩
  | resumeMethod w rest hs =>
    have hw : Frame.Within live (.app (some w) : Frame P η ι) := hlive.stack _ (by simp [hs])
    have hrest : ∀ f ∈ rest, Frame.Within live f := fun f hf => hlive.stack f (by simp [hs,hf])
    refine ⟨_,?_,matched_run hrel (similar_unwind h rest) hrest hw w.result (w.rest ())⟩
    simp only [Config.exec,← h.stack,hs]
  | resumeUdp rest hs =>
    have hrest : ∀ f ∈ rest, Frame.Within live f := fun f hf => hlive.stack f (by simp [hs,hf])
    refine ⟨((d.unwind rest).resume,.nothing),?_,
      similar_resume hrel (similar_unwind h rest),rfl,hrest⟩
    simp only [Config.exec,← h.stack,hs]
  | «return» u t v caller rest hs =>
    have hw : Frame.Within live (.udp u t caller) := hlive.stack _ (by simp [hs])
    have hrest : ∀ f ∈ rest, Frame.Within live f := fun f hf => hlive.stack f (by simp [hs,hf])
    have hcaller : ∀ w ∈ caller, live w.socket := by
      rintro w rfl
      exact hw
    refine ⟨_,?_,matched_handOver hrel (similar_unwind h rest) hrest (.udp u) t v caller hcaller⟩
    simp only [Config.exec,← h.stack,hs,↓reduceDIte]
  | raise u e runs => exact ⟨_,if_pos (hudp ▸ runs),matched_raise hrel h hlive u e⟩
  | transmit u connected address runs =>
    refine ⟨_,if_pos (hudp ▸ runs),h,?_,hlive.stack⟩
    show Seen.stamped _ = Seen.stamped _
    rw [h.udp]
  | receive u fromAddress runs =>
    refine ⟨_,if_pos (hudp ▸ runs),h,?_,hlive.stack⟩
    show Seen.informed _ = Seen.informed _
    rw [h.udp]
  | wake runs =>
    exact ⟨_,if_pos (happ ▸ runs),similar_push h _,rfl,within_push hlive.stack trivial⟩
  | sleep rest hs =>
    have hrest : ∀ f ∈ rest, Frame.Within live f := fun f hf => hlive.stack f (by simp [hs,hf])
    refine ⟨(d.unwind rest,.nothing),?_,similar_unwind h rest,rfl,hrest⟩
    simp only [Config.exec,← h.stack,hs]

end Steps

end Ns3Helix.SocketSimulation
