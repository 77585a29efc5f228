import Ns3Helix.StackMachine

/-!
# What holds between two notifications

While notifications are pending, the two code paths that publish a socket
factory and the two that connect a down target may be interrupted at their
`AggregateObject` calls. The invariant says what each waiting stage still has
to do, and that a protocol with anything left to connect will be notified.
-/

set_option autoImplicit false

namespace Ns3Helix.StackInvariant
open Ns3Helix.InteractionProgram Ns3Helix.ObjectAggregation Ns3Helix.HelixStack
open Ns3Helix.StackMachine

def Ip (t : TypeId) : Prop := t = .ipv4 ∨ t = .ipv6

def HasIp (w : World) (h : ℕ) : Prop :=
  ∃ t v, Ip t ∧ v ∈ w.objects.members h ∧ w.objects.typeOf v = some t

def Owes (w : World) (h : ℕ) : Prop :=
  ∃ t v, Ip t ∧ v ∈ w.objects.members h ∧ w.objects.typeOf v = some t ∧
    (target w h t = none ∨ (w.helix h).mNode = none)

def Bound (w : World) (h : ℕ) (t : TypeId) (ip : Option ℕ) : Prop :=
  ∀ v ∈ ip, v ∈ w.objects.members h ∧ w.objects.typeOf v = some t

structure Wired (w : World) (ss : List Stage) : Prop where
  node : ∀ h n, (w.helix h).mNode = some n →
    w.objects.typeOf h = some .helixL4Protocol ∧ n ∈ w.objects.members h ∧
      w.objects.typeOf n = some .node
  target : ∀ h t v, target w h t = some v → w.objects.typeOf h = some .helixL4Protocol ∧
    v ∈ w.objects.members h ∧ w.objects.typeOf v = some t
  owner : ∀ f, w.objects.typeOf f = some .helixSocketFactory → ∃ h ∈ w.objects.members f,
    w.objects.typeOf h = some .helixL4Protocol ∧ (w.factory f).mHelix = some h ∧
      (w.helix h).mNode ≠ none ∧ ∀ n, .addFactory n h ∉ ss
  typed : ∀ f h, (w.factory f).mHelix = some h → w.objects.typeOf f = some .helixSocketFactory
  factory : ∀ h n, (w.helix h).mNode = some n →
    (∃ f ∈ w.objects.members h, w.objects.typeOf f = some .helixSocketFactory) ∨
      .addFactory n h ∈ ss
  pending : ∀ h, w.objects.typeOf h = some .helixL4Protocol → Owes w h → .notify h ∈ ss
  connect : ∀ h ipv4 ipv6, .connect h ipv4 ipv6 ∈ ss →
    w.objects.typeOf h = some .helixL4Protocol ∧ Bound w h .ipv4 ipv4 ∧ Bound w h .ipv6 ipv6
  addFactory : ∀ n h, .addFactory n h ∈ ss → (w.helix h).mNode = some n
  once : ∀ n h, ss.count (.addFactory n h) ≤ 1
  addHelix : ∀ n helix, .addHelix n helix ∈ ss →
    ss = [.addHelix n helix] ∧ Accepts w n helix

theorem wired_initial : Wired .initial [] where
  node _ _ h := by cases h
  target _ t _ h := by cases t <;> cases h
  owner _ h := by cases h
  typed _ _ h := by cases h
  factory _ _ h := by cases h
  pending _ h := by cases h
  connect _ _ _ h := by cases h
  addFactory _ _ h := by cases h
  once _ _ := by simp
  addHelix _ _ h := by cases h

section Stages

variable {w : World} {ss ss' : List Stage}

/-- Stages may be dropped and reordered, as long as every notification that
is still owed stays. -/
theorem wired_restage (h : Wired w ss)
    (hnotify : ∀ g, w.objects.typeOf g = some .helixL4Protocol → Owes w g →
      .notify g ∈ ss → .notify g ∈ ss')
    (hconnect : ∀ g ipv4 ipv6, .connect g ipv4 ipv6 ∈ ss' →
      w.objects.typeOf g = some .helixL4Protocol ∧ Bound w g .ipv4 ipv4 ∧ Bound w g .ipv6 ipv6)
    (hfactory : ∀ n g, ss'.count (.addFactory n g) = ss.count (.addFactory n g))
    (hhelix : ∀ n helix, .addHelix n helix ∉ ss') : Wired w ss' := by
  have hmem : ∀ n g, .addFactory n g ∈ ss' ↔ .addFactory n g ∈ ss := by
    intro n g
    rw [← List.count_pos_iff,hfactory,List.count_pos_iff]
  refine ⟨h.node,h.target,?owner,h.typed,?factory,?pending,hconnect,?addFactory,?once,?addHelix⟩
  case owner =>
    intro f hf
    obtain ⟨g,hg,hgt,hfg,hn,hno⟩ := h.owner f hf
    exact ⟨g,hg,hgt,hfg,hn,fun n => (hmem n g).not.mpr (hno n)⟩
  case factory =>
    intro g n hn
    exact (h.factory g n hn).imp id (hmem n g).mpr
  case pending =>
    intro g hg ho
    exact hnotify g hg ho (h.pending g hg ho)
  case addFactory =>
    intro n g hs
    exact h.addFactory n g ((hmem n g).mp hs)
  case once =>
    intro n g
    rw [hfactory]
    exact h.once n g
  case addHelix =>
    intro n helix hs
    exact absurd hs (hhelix n helix)

end Stages

section Create

variable {w : World} {ss : List Stage} {t : TypeId}

theorem accepts_create {n : ℕ} {helix : Option ℕ} (t : TypeId) (h : Accepts w n helix) :
    Accepts (w.create t) n helix := by
  obtain ⟨hn,hnone,hfresh⟩ := h
  have hlt := w.objects.typed_lt hn
  refine ⟨w.objects.create_typeOf.mpr (.inl hn),?_,?_⟩
  · rw [Aggregation.getObject_eq_none] at hnone ⊢
    intro p hp ht
    have hold := w.objects.create_typeOf_old t (w.objects.member_lt hlt hp)
    exact hnone p hp (hold ▸ ht)
  · intro g hg
    exact ⟨w.objects.create_typeOf.mpr (.inl (hfresh g hg).1),(hfresh g hg).2⟩

theorem create_keeps {o : ℕ} {t' : TypeId} (t : TypeId) (h : w.objects.typeOf o = some t') :
    (w.create t).objects.typeOf o = some t' := w.objects.create_typeOf.mpr (.inl h)

theorem wired_create (h : Wired w ss) (ht : t ≠ .helixSocketFactory) :
    Wired (w.create t) ss where
  node g n hn := by
    obtain ⟨hg,hmem,hnt⟩ := h.node g n hn
    exact ⟨create_keeps t hg,hmem,create_keeps t hnt⟩
  target g t' v hv := by
    obtain ⟨hg,hmem,hvt⟩ := h.target g t' v hv
    exact ⟨create_keeps t hg,hmem,create_keeps t hvt⟩
  owner f hf := by
    rcases w.objects.create_typeOf.mp hf with hf | ⟨_,e⟩
    · obtain ⟨g,hg,hgt,hrest⟩ := h.owner f hf
      exact ⟨g,hg,create_keeps t hgt,hrest⟩
    · exact absurd e ht
  typed f g hf := create_keeps t (h.typed f g hf)
  factory g n hn := by
    rcases h.factory g n hn with ⟨f,hf,hft⟩ | hs
    · exact .inl ⟨f,hf,create_keeps t hft⟩
    · exact .inr hs
  pending g hg ho := by
    obtain ⟨t',v,hip,hv,hvt,hor⟩ := ho
    rcases w.objects.create_typeOf.mp hg with hg | ⟨rfl,rfl⟩
    · rcases w.objects.create_typeOf.mp hvt with hvt | ⟨rfl,_⟩
      · exact h.pending g hg ⟨t',v,hip,hv,hvt,hor⟩
      · have hlt := w.objects.member_lt (w.objects.typed_lt hg) hv
        omega
    · obtain rfl := w.objects.members_next v hv
      have ht' : t' = .helixL4Protocol := by
        rw [World.create,Aggregation.create_typeOf_new] at hvt
        exact (Option.some.inj hvt).symm
      rcases hip with rfl | rfl <;> cases ht'
  connect g ipv4 ipv6 hs := by
    obtain ⟨hg,h4,h6⟩ := h.connect g ipv4 ipv6 hs
    exact ⟨create_keeps t hg,fun v hv => ⟨(h4 v hv).1,create_keeps t (h4 v hv).2⟩,
      fun v hv => ⟨(h6 v hv).1,create_keeps t (h6 v hv).2⟩⟩
  addFactory := h.addFactory
  once := h.once
  addHelix n helix hs := by
    obtain ⟨hss,ha⟩ := h.addHelix n helix hs
    exact ⟨hss,accepts_create t ha⟩

end Create

section Merge

variable {w : World} {ss : List Stage} {a b : ℕ}

def merged (w : World) (a b : ℕ) (hc : w.objects.Compatible a b) : World :=
  { w with objects := w.objects.merge a b hc }

/-- Every member of the merged aggregate is notified, so nothing owed is
forgotten. -/
theorem wired_merge (h : Wired w ss) (hc : w.objects.Compatible a b)
    (hno : ∀ n helix, .addHelix n helix ∉ ss) {notes : List ℕ}
    (hnotes : ∀ o ∈ w.objects.joined a b, o ∈ notes) :
    Wired (merged w a b hc) (notes.map .notify ++ ss) where
  node g n hn := by
    obtain ⟨hg,hmem,hnt⟩ := h.node g n hn
    exact ⟨hg,w.objects.merge_grows hc hmem,hnt⟩
  target g t' v hv := by
    obtain ⟨hg,hmem,hvt⟩ := h.target g t' v hv
    exact ⟨hg,w.objects.merge_grows hc hmem,hvt⟩
  owner f hf := by
    obtain ⟨g,hg,hgt,hfg,hn,hs⟩ := h.owner f hf
    exact ⟨g,w.objects.merge_grows hc hg,hgt,hfg,hn,fun n => by simpa using hs n⟩
  typed := h.typed
  factory g n hn := by
    rcases h.factory g n hn with ⟨f,hf,hft⟩ | hs
    · exact .inl ⟨f,w.objects.merge_grows hc hf,hft⟩
    · exact .inr (List.mem_append_right _ hs)
  pending g hg ho := by
    obtain ⟨t',v,hip,hv,hvt,hor⟩ := ho
    rcases (w.objects.merge_mem hc).mp hv with hv | ⟨hj,_⟩
    · exact List.mem_append_right _ (h.pending g hg ⟨t',v,hip,hv,hvt,hor⟩)
    · exact List.mem_append_left _ (List.mem_map_of_mem (hnotes g hj))
  connect g ipv4 ipv6 hs := by
    obtain ⟨hg,h4,h6⟩ := h.connect g ipv4 ipv6 (by simpa using hs)
    exact ⟨hg,fun v hv => ⟨w.objects.merge_grows hc (h4 v hv).1,(h4 v hv).2⟩,
      fun v hv => ⟨w.objects.merge_grows hc (h6 v hv).1,(h6 v hv).2⟩⟩
  addFactory n g hs := h.addFactory n g (by simpa using hs)
  once n g := by
    have hz : (notes.map Stage.notify).count (.addFactory n g) = 0 :=
      List.count_eq_zero.mpr (by simp)
    rw [List.count_append,hz,Nat.zero_add]
    exact h.once n g
  addHelix n helix hs := absurd (by simpa using hs) (hno n helix)

end Merge

section SetNode

variable {w : World} {ss : List Stage}

theorem setNode_same (w : World) (g : ℕ) (x : Option ℕ) :
    ((w.setNode g x).helix g).mNode = x := by
  simp [World.setNode,World.setHelixFields,World.record]

theorem setNode_other (w : World) {g o : ℕ} (x : Option ℕ) (h : o ≠ g) :
    (w.setNode g x).helix o = w.helix o := by
  simp [World.setNode,World.setHelixFields,World.record,h]

@[simp] theorem setNode_target (w : World) (g : ℕ) (x : Option ℕ) (o : ℕ) (t : TypeId) :
    target (w.setNode g x) o t = target w o t := by
  by_cases h : o = g
  · subst h
    cases t <;> simp [target,World.setNode,World.setHelixFields,World.record]
  · cases t <;> simp [target,setNode_other w x h]

@[simp] theorem setNode_objects (w : World) (g : ℕ) (x : Option ℕ) :
    (w.setNode g x).objects = w.objects := rfl

@[simp] theorem setNode_factory (w : World) (g : ℕ) (x : Option ℕ) :
    (w.setNode g x).factory = w.factory := rfl

theorem wired_setNode (h : Wired w ss) (hno : ∀ n helix, .addHelix n helix ∉ ss) {g n : ℕ}
    (hg : w.objects.typeOf g = some .helixL4Protocol) (hmem : n ∈ w.objects.members g)
    (hnt : w.objects.typeOf n = some .node) (hunset : (w.helix g).mNode = none) :
    Wired (w.setNode g (some n)) (.addFactory n g :: ss) := by
  have kept : ∀ {o m}, (w.helix o).mNode = some m → o ≠ g := by
    rintro o m hm rfl
    rw [hunset] at hm
    cases hm
  have hnew : .addFactory n g ∉ ss := fun hs => kept (h.addFactory n g hs) rfl
  refine ⟨?node,?target,?owner,h.typed,?factory,?pending,?connect,?addFactory,?once,?addHelix⟩
  case node =>
    intro o m hm
    by_cases ho : o = g
    · subst ho
      rw [setNode_same] at hm
      obtain rfl := Option.some.inj hm
      exact ⟨hg,hmem,hnt⟩
    · rw [setNode_other w _ ho] at hm
      exact h.node o m hm
  case target =>
    intro o t v hv
    rw [setNode_target] at hv
    exact h.target o t v hv
  case owner =>
    intro f hf
    obtain ⟨o,ho,hot,hfo,hset,hs⟩ := h.owner f hf
    have hog : o ≠ g := by
      rintro rfl
      exact hset hunset
    refine ⟨o,ho,hot,hfo,?_,?_⟩
    · rwa [setNode_other w _ hog]
    · intro m
      simpa [hog] using hs m
  case factory =>
    intro o m hm
    by_cases ho : o = g
    · subst ho
      rw [setNode_same] at hm
      obtain rfl := Option.some.inj hm
      exact .inr (by simp)
    · rw [setNode_other w _ ho] at hm
      exact (h.factory o m hm).imp id (List.mem_cons_of_mem _)
  case pending =>
    rintro o ho ⟨t,v,hip,hv,hvt,hor⟩
    rw [setNode_target] at hor
    refine List.mem_cons_of_mem _ (h.pending o ho ⟨t,v,hip,hv,hvt,hor.imp id ?_⟩)
    intro hm
    by_cases hog : o = g
    · subst hog
      exact hunset
    · rwa [setNode_other w _ hog] at hm
  case connect =>
    intro o ipv4 ipv6 hs
    exact h.connect o ipv4 ipv6 (by simpa using hs)
  case addFactory =>
    intro m o hs
    rcases List.mem_cons.mp hs with e | hs
    · cases e
      exact setNode_same w g _
    · have hm := h.addFactory m o hs
      rwa [setNode_other w _ (kept hm)]
  case once =>
    intro m o
    by_cases e : Stage.addFactory n g = .addFactory m o
    · cases e
      simp [List.count_eq_zero.mpr hnew]
    · rw [List.count_cons_of_ne e]
      exact h.once m o
  case addHelix =>
    intro m helix hs
    exact absurd (by simpa using hs) (hno m helix)

end SetNode

section Connect

variable {w : World} {ss : List Stage} {g : ℕ} {ipv4 ipv6 : Option ℕ}

structure Retargets (w w' : World) (g : ℕ) (t : TypeId) (ip : Option ℕ) : Prop where
  objects : w'.objects = w.objects
  factory : w'.factory = w.factory
  mNode : ∀ o, (w'.helix o).mNode = (w.helix o).mNode
  target : ∀ o t', target w' o t' =
    if o = g ∧ t' = t then (target w o t').or ip else target w o t'

theorem retargets_refl (w : World) (g : ℕ) (t : TypeId) (ip : Option ℕ)
    (h : ip = none ∨ ∃ v, target w g t = some v) : Retargets w w g t ip where
  objects := rfl
  factory := rfl
  mNode _ := rfl
  target o t' := by
    by_cases ho : o = g ∧ t' = t
    · obtain ⟨rfl,rfl⟩ := ho
      rcases h with rfl | ⟨v,hv⟩
      · simp
      · simp [hv]
    · rw [if_neg ho]

theorem retargets_set {t : TypeId} {v : ℕ} {d : HelixL4Protocol} {wires : List Wire}
    (hunset : target w g t = none) (hnode : d.mNode = (w.helix g).mNode)
    (htarget : ∀ t', target (w.setHelixFields g d) g t' =
      if t' = t then some v else target w g t') :
    Retargets w { w.setHelixFields g d with wires := wires } g t (some v) where
  objects := rfl
  factory := rfl
  mNode o := by
    by_cases ho : o = g
    · subst ho
      simpa [World.setHelixFields] using hnode
    · simp [World.setHelixFields,ho]
  target o t' := by
    by_cases ho : o = g
    · subst ho
      have hset : target { w.setHelixFields o d with wires := wires } o t' =
          if t' = t then some v else target w o t' := htarget t'
      by_cases ht : t' = t
      · subst ht
        simp [hset,hunset]
      · simp [hset,ht]
    · cases t' <;> simp [target,World.setHelixFields,ho]

theorem connectIp_retargets {t : TypeId} (ht : Ip t) (w : World) (g : ℕ) (ip : Option ℕ) :
    Retargets w (w.connectIp t g ip) g t ip := by
  cases ip with
  | none => exact retargets_refl w g t none (.inl rfl)
  | some v =>
    cases hd : target w g t with
    | some v' =>
      rw [show w.connectIp t g (some v) = w by simp [World.connectIp,hd]]
      exact retargets_refl w g t _ (.inr ⟨v',hd⟩)
    | none =>
      rw [show w.connectIp t g (some v) = w.bindTarget t g v by simp [World.connectIp,hd]]
      rcases ht with rfl | rfl
      all_goals
        refine retargets_set hd rfl fun t => ?_
        cases t <;> simp [target,World.setHelixFields,World.record]

theorem wired_retarget {w' : World} {t : TypeId} {ip : Option ℕ} (h : Wired w ss)
    (hw : Retargets w w' g t ip) (hg : w.objects.typeOf g = some .helixL4Protocol)
    (hip : Bound w g t ip) : Wired w' ss where
  node o n hn := by
    rw [hw.mNode] at hn
    rw [hw.objects]
    exact h.node o n hn
  target o t' v hv := by
    rw [hw.target] at hv
    rw [hw.objects]
    by_cases ho : o = g ∧ t' = t
    · obtain ⟨rfl,rfl⟩ := ho
      rw [if_pos ⟨rfl,rfl⟩] at hv
      rcases Option.or_eq_some_iff.mp hv with hv | ⟨_,hv⟩
      · exact h.target o t' v hv
      · exact ⟨hg,hip v hv⟩
    · rw [if_neg ho] at hv
      exact h.target o t' v hv
  owner f hf := by
    rw [hw.objects] at hf ⊢
    rw [hw.factory]
    obtain ⟨o,ho,hot,hfo,hset,hs⟩ := h.owner f hf
    exact ⟨o,ho,hot,hfo,by rwa [hw.mNode],hs⟩
  typed f o hf := by
    rw [hw.factory] at hf
    rw [hw.objects]
    exact h.typed f o hf
  factory o n hn := by
    rw [hw.mNode] at hn
    rw [hw.objects]
    exact h.factory o n hn
  pending o ho := by
    rintro ⟨t',v,hv,hvm,hvt,hor⟩
    rw [hw.objects] at ho hvm hvt
    rw [hw.mNode,hw.target] at hor
    refine h.pending o ho ⟨t',v,hv,hvm,hvt,hor.imp (fun hn => ?_) id⟩
    by_cases hog : o = g ∧ t' = t
    · rw [if_pos hog] at hn
      exact (Option.or_eq_none_iff.mp hn).1
    · rwa [if_neg hog] at hn
  connect o v4 v6 hs := by
    rw [hw.objects]
    obtain ⟨ho,h4,h6⟩ := h.connect o v4 v6 hs
    exact ⟨ho,by rwa [Bound,hw.objects],by rwa [Bound,hw.objects]⟩
  addFactory n o hs := by rw [hw.mNode]; exact h.addFactory n o hs
  once := h.once
  addHelix n helix hs := by
    rw [Accepts,hw.objects]
    exact h.addHelix n helix hs

theorem wired_connect (h : Wired w ss) (hg : w.objects.typeOf g = some .helixL4Protocol)
    (h4 : Bound w g .ipv4 ipv4) (h6 : Bound w g .ipv6 ipv6) :
    Wired (w.connect g ipv4 ipv6) ss := by
  have first := connectIp_retargets (.inl rfl) w g ipv4
  have hw := wired_retarget h first hg h4
  apply wired_retarget hw (connectIp_retargets (.inr rfl) _ g ipv6)
  · rwa [first.objects]
  · rwa [Bound,first.objects]

section
variable (w : World) (g : ℕ) (ipv4 ipv6 : Option ℕ)

@[simp] theorem connect_objects : (w.connect g ipv4 ipv6).objects = w.objects := by
  rw [World.connect,(connectIp_retargets (.inr rfl) _ g ipv6).objects,
    (connectIp_retargets (.inl rfl) w g ipv4).objects]

@[simp] theorem connect_mNode (o : ℕ) :
    ((w.connect g ipv4 ipv6).helix o).mNode = (w.helix o).mNode := by
  rw [World.connect,(connectIp_retargets (.inr rfl) _ g ipv6).mNode,
    (connectIp_retargets (.inl rfl) w g ipv4).mNode]

theorem connect_target (o : ℕ) (t : TypeId) : target (w.connect g ipv4 ipv6) o t =
    if o = g then (target w o t).or (match t with
      | .ipv4 => ipv4
      | .ipv6 => ipv6
      | _ => none)
    else target w o t := by
  rw [World.connect,(connectIp_retargets (.inr rfl) _ g ipv6).target,
    (connectIp_retargets (.inl rfl) w g ipv4).target]
  by_cases ho : o = g
  · subst ho
    cases t <;> simp
  · simp [ho]

end

end Connect

section AddFactory

variable {w : World} {ss : List Stage} {n g : ℕ}

theorem createFactory_typeOf (g : ℕ) {o : ℕ} {t : TypeId} :
    (w.createFactory g).objects.typeOf o = some t ↔
      w.objects.typeOf o = some t ∨ (o = w.objects.next ∧ .helixSocketFactory = t) :=
  w.objects.create_typeOf

theorem createFactory_helix : (w.createFactory g).helix = w.helix := rfl

theorem createFactory_new :
    ((w.createFactory g).factory w.objects.next).mHelix = some g := by
  simp [World.createFactory,World.setHelix,World.record,World.create]

theorem createFactory_old {f : ℕ} (hf : f ≠ w.objects.next) :
    (w.createFactory g).factory f = w.factory f := by
  simp [World.createFactory,World.setHelix,World.record,World.create,hf]

theorem factory_absent (h : Wired w (.addFactory n g :: ss)) {p : ℕ}
    (hp : p ∈ w.objects.members n) : w.objects.typeOf p ≠ some .helixSocketFactory := by
  intro hpt
  obtain ⟨hg,hmem,_⟩ := h.node g n (h.addFactory n g (by simp))
  obtain ⟨o,ho,hot,_,_,hs⟩ := h.owner p hpt
  have hog : o ∈ w.objects.members g := w.objects.mem_trans (w.objects.mem_trans hmem hp) ho
  obtain rfl := w.objects.distinct hog (w.objects.self_mem g) hot hg
  exact hs n (by simp)

theorem factory_compatible (h : Wired w (.addFactory n g :: ss)) :
    (w.createFactory g).objects.Compatible n w.objects.next where
  left := by
    obtain ⟨_,_,hnt⟩ := h.node g n (h.addFactory n g (by simp))
    have hlt := w.objects.typed_lt hnt
    show n < w.objects.next+1
    omega
  right := Nat.lt_succ_self _
  types p hp q hq := by
    obtain rfl := w.objects.members_next q hq
    rw [(createFactory_typeOf g).mpr (.inr ⟨rfl,rfl⟩)]
    intro hpt
    rcases (createFactory_typeOf g).mp hpt with hpt | ⟨rfl,_⟩
    · exact factory_absent h hp hpt
    · obtain ⟨_,_,hnt⟩ := h.node g n (h.addFactory n g (by simp))
      have hlt := w.objects.member_lt (w.objects.typed_lt hnt) hp
      omega

/-- A protocol is given no second factory. -/
theorem addFactory_once (h : Wired w (.addFactory n g :: ss)) (m : ℕ) : .addFactory m g ∉ ss := by
  intro hs
  have hn := h.addFactory n g (by simp)
  have hm := h.addFactory m g (by simp [hs])
  obtain rfl : n = m := Option.some.inj (hn.symm.trans hm)
  have hcount := h.once n g
  rw [List.count_cons_self] at hcount
  have hpos := List.count_pos_iff.mpr hs
  omega

theorem wired_addFactory (h : Wired w (.addFactory n g :: ss))
    (hno : ∀ m helix, .addHelix m helix ∉ ss)
    (hc : (w.createFactory g).objects.Compatible n w.objects.next) {notes : List ℕ}
    (hnotes : ∀ o ∈ (w.createFactory g).objects.joined n w.objects.next, o ∈ notes) :
    Wired (merged (w.createFactory g) n w.objects.next hc) (notes.map .notify ++ ss) := by
  have hset := h.addFactory n g (by simp)
  obtain ⟨hg,hmem,hnt⟩ := h.node g n hset
  have keep : ∀ {o t}, w.objects.typeOf o = some t →
      (w.createFactory g).objects.typeOf o = some t :=
    fun ho => (createFactory_typeOf g).mpr (.inl ho)
  have grow : ∀ {o p}, p ∈ w.objects.members o →
      p ∈ (merged (w.createFactory g) n w.objects.next hc).objects.members o :=
    fun hp => Aggregation.merge_grows _ hc hp
  have hgj : g ∈ (w.createFactory g).objects.joined n w.objects.next :=
    List.mem_append_left _ (w.objects.mem_symm hmem)
  have hnew : (w.createFactory g).objects.typeOf w.objects.next = some .helixSocketFactory :=
    (createFactory_typeOf g).mpr (.inr ⟨rfl,rfl⟩)
  have hfj : w.objects.next ∈ (w.createFactory g).objects.joined n w.objects.next :=
    Aggregation.right_joined _
  refine ⟨?node,?target,?owner,?typed,?factory,?pending,?connect,?addFactory,?once,?addHelix⟩
  case node =>
    intro o m hm
    obtain ⟨ho,hom,hmt⟩ := h.node o m hm
    exact ⟨keep ho,grow hom,keep hmt⟩
  case target =>
    intro o t v hv
    obtain ⟨ho,hov,hvt⟩ := h.target o t v hv
    exact ⟨keep ho,grow hov,keep hvt⟩
  case owner =>
    intro f hf
    rcases (createFactory_typeOf g).mp hf with hf | ⟨rfl,_⟩
    · obtain ⟨o,ho,hot,hfo,hos,hs⟩ := h.owner f hf
      have hne : f ≠ w.objects.next := Nat.ne_of_lt (w.objects.typed_lt hf)
      refine ⟨o,grow ho,keep hot,?_,hos,fun m => ?_⟩
      · exact (congrArg HelixSocketFactoryImpl.mHelix (createFactory_old hne)).trans hfo
      · have hm := hs m
        simp only [List.mem_cons,not_or] at hm
        simpa using hm.2
    · refine ⟨g,Aggregation.merge_joined _ hc hfj hgj,keep hg,createFactory_new,?_,fun m => ?_⟩
      · show (w.helix g).mNode ≠ none
        rw [hset]
        simp
      · simpa using addFactory_once h m
  case typed =>
    intro f o hf
    by_cases hne : f = w.objects.next
    · subst hne
      exact hnew
    · exact keep (h.typed f o ((congrArg HelixSocketFactoryImpl.mHelix
        (createFactory_old hne)).symm.trans hf))
  case factory =>
    intro o m hm
    rcases h.factory o m hm with ⟨f,hf,hft⟩ | hs
    · exact .inl ⟨f,grow hf,keep hft⟩
    · rcases List.mem_cons.mp hs with e | hs
      · cases e
        exact .inl ⟨w.objects.next,Aggregation.merge_joined _ hc hgj hfj,hnew⟩
      · exact .inr (List.mem_append_right _ hs)
  case pending =>
    rintro o ho ⟨t,v,hip,hv,hvt,hor⟩
    rcases (Aggregation.merge_mem _ hc).mp hv with hv | ⟨hj,_⟩
    · rcases (createFactory_typeOf g).mp ho with ho | ⟨_,e⟩
      · rcases (createFactory_typeOf g).mp hvt with hvt | ⟨_,rfl⟩
        · have hs := h.pending o ho ⟨t,v,hip,hv,hvt,hor⟩
          exact List.mem_append_right _ (by simpa using hs)
        · rcases hip with e | e <;> cases e
      · cases e
    · exact List.mem_append_left _ (List.mem_map_of_mem (hnotes o hj))
  case connect =>
    intro o ipv4 ipv6 hs
    have hs' : .connect o ipv4 ipv6 ∈ ss := by simpa using hs
    obtain ⟨ho,h4,h6⟩ := h.connect o ipv4 ipv6 (List.mem_cons_of_mem _ hs')
    exact ⟨keep ho,fun v hv => ⟨grow (h4 v hv).1,keep (h4 v hv).2⟩,
      fun v hv => ⟨grow (h6 v hv).1,keep (h6 v hv).2⟩⟩
  case addFactory =>
    intro m o hs
    have hs' : .addFactory m o ∈ ss := by simpa using hs
    exact h.addFactory m o (List.mem_cons_of_mem _ hs')
  case once =>
    intro m o
    have hz : (notes.map Stage.notify).count (.addFactory m o) = 0 :=
      List.count_eq_zero.mpr (by simp)
    have hcount := h.once m o
    rw [List.count_append,hz,Nat.zero_add]
    exact Nat.le_trans List.count_le_count_cons hcount
  case addHelix =>
    intro m helix hs
    exact absurd (by simpa using hs) (hno m helix)

end AddFactory

section Evolution

/-- Objects and aggregates only grow, a node that is set stays, and only the
protocols in `A` learn their node. -/
structure Evolves (w w' : World) (A : ℕ → Prop) : Prop where
  kept : ∀ h n, (w.helix h).mNode = some n → (w'.helix h).mNode = some n
  cause : ∀ h n, (w'.helix h).mNode = some n → (w.helix h).mNode = some n ∨ A h
  typeOf : ∀ {o t}, w.objects.typeOf o = some t → w'.objects.typeOf o = some t
  members : ∀ {o p}, p ∈ w.objects.members o → p ∈ w'.objects.members o

variable {w w' w'' : World} {A : ℕ → Prop}

theorem evolves_refl (w : World) (A : ℕ → Prop) : Evolves w w A :=
  ⟨fun _ _ h => h,fun _ _ h => .inl h,id,id⟩

theorem evolves_trans (h : Evolves w w' A) (h' : Evolves w' w'' A) : Evolves w w'' A where
  kept o n ho := h'.kept o n (h.kept o n ho)
  cause o n ho := (h'.cause o n ho).elim (h.cause o n) .inr
  typeOf ht := h'.typeOf (h.typeOf ht)
  members hp := h'.members (h.members hp)

theorem evolves_create (w : World) (t : TypeId) (A : ℕ → Prop) : Evolves w (w.create t) A :=
  ⟨fun _ _ h => h,fun _ _ h => .inl h,create_keeps t,id⟩

theorem evolves_merge {a b : ℕ} (hc : w.objects.Compatible a b) (A : ℕ → Prop) :
    Evolves w (merged w a b hc) A :=
  ⟨fun _ _ h => h,fun _ _ h => .inl h,id,w.objects.merge_grows hc⟩

theorem evolves_connect (w : World) (g : ℕ) (ipv4 ipv6 : Option ℕ) (A : ℕ → Prop) :
    Evolves w (w.connect g ipv4 ipv6) A where
  kept o n ho := by rwa [connect_mNode]
  cause o n ho := .inl (by rwa [connect_mNode] at ho)
  typeOf ht := by rwa [connect_objects]
  members hp := by rwa [connect_objects]

theorem evolves_setNode {g n : ℕ} (hunset : (w.helix g).mNode = none) (hA : A g) :
    Evolves w (w.setNode g (some n)) A where
  kept o m ho := by
    by_cases hog : o = g
    · rw [hog,hunset] at ho
      cases ho
    · rwa [setNode_other w _ hog]
  cause o m ho := by
    by_cases hog : o = g
    · exact .inr (hog ▸ hA)
    · rw [setNode_other w _ hog] at ho
      exact .inl ho
  typeOf := id
  members := id

theorem evolves_factory {n g : ℕ}
    (hc : (w.createFactory g).objects.Compatible n w.objects.next) (A : ℕ → Prop) :
    Evolves w (merged (w.createFactory g) n w.objects.next hc) A where
  kept _ _ ho := ho
  cause _ _ ho := .inl ho
  typeOf ht := (createFactory_typeOf g).mpr (.inl ht)
  members hp := Aggregation.merge_grows _ hc hp

end Evolution

end Ns3Helix.StackInvariant
