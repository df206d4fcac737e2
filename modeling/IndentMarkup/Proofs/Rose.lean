import IndentMarkup.Tree.Rose
import Mathlib.Data.List.Nodup

/-!
# Labelled trees and the relations they unfold

A tree *follows* a map from labels to lists of labels when the children of every node carry the labels that
the map gives for the label of the node. A tree that follows a map is determined by the map and the label of
its root, so two trees are compared by comparing what they follow. `extend` relabels a tree and puts further
trees behind the children of some of its nodes.
-/

namespace IndentMarkup

namespace Rose

variable {α β γ : Type}

/-! ## Induction and the recursions over children -/

/-- To prove something of every tree, prove it of a node whose children have it. -/
theorem induction {P : Rose α → Prop} (h : ∀ a cs, (∀ c ∈ cs, P c) → P (node a cs)) : ∀ t, P t
  | node a cs => h a cs (all cs)
where
  all : ∀ cs : List (Rose α), ∀ c ∈ cs, P c
    | [], _, hc => absurd hc (List.not_mem_nil)
    | t :: rest, c, hc => by
        rcases List.mem_cons.mp hc with heq | hrest
        · exact heq ▸ induction h t
        · exact all rest c hrest

/-- To prove something of every list of trees, prove it of the empty one and of a node in front of a list that
has it, when its children have it. -/
theorem induction_forest {P : List (Rose α) → Prop} (nil : P [])
    (cons : ∀ a cs rest, P cs → P rest → P (node a cs :: rest)) : ∀ ts, P ts
  | [] => nil
  | node a cs :: rest => cons a cs rest (induction_forest nil cons cs) (induction_forest nil cons rest)

@[simp] theorem self_node (a : α) (cs : List (Rose α)) : (node a cs).self = a := rfl

@[simp] theorem children_node (a : α) (cs : List (Rose α)) : (node a cs).children = cs := rfl

theorem eta (t : Rose α) : node t.self t.children = t := by
  cases t with
  | node a cs => rfl

theorem mapAll_eq (f : α → β) (cs : List (Rose α)) : mapAll f cs = cs.map (map f) := by
  induction cs with
  | nil => rfl
  | cons c cs ih => rw [mapAll, ih, List.map_cons]

theorem preorderAll_eq (cs : List (Rose α)) : preorderAll cs = cs.flatMap preorder := by
  induction cs with
  | nil => rfl
  | cons c cs ih => rw [preorderAll, ih, List.flatMap_cons]

@[simp] theorem map_node (f : α → β) (a : α) (cs : List (Rose α)) :
    map f (node a cs) = node (f a) (cs.map (map f)) := by
  rw [map, mapAll_eq]

@[simp] theorem preorder_node (a : α) (cs : List (Rose α)) :
    preorder (node a cs) = a :: cs.flatMap preorder := by
  rw [preorder, preorderAll_eq]

@[simp] theorem self_map (f : α → β) (t : Rose α) : (t.map f).self = f t.self := by
  cases t with
  | node a cs => simp

@[simp] theorem children_map (f : α → β) (t : Rose α) : (t.map f).children = t.children.map (map f) := by
  cases t with
  | node a cs => simp

@[simp] theorem map_leaf (f : α → β) (a : α) : map f (leaf a) = leaf (f a) := by
  simp [leaf]

@[simp] theorem map_prepend (f : α → β) (c t : Rose α) : map f (prepend c t) = prepend (map f c) (map f t) := by
  cases t with
  | node a cs => simp [prepend]

theorem map_map (g : β → γ) (f : α → β) (t : Rose α) : (t.map f).map g = t.map (g ∘ f) := by
  induction t using induction with
  | h a cs ih =>
      have hcs : cs.map (map g ∘ map f) = cs.map (map (g ∘ f)) := List.map_congr_left ih
      simp [hcs]

theorem map_id_eq (t : Rose α) : t.map id = t := by
  induction t using induction with
  | h a cs ih => rw [map_node, id, List.map_congr_left ih, List.map_id']

theorem map_congr {f g : α → β} {t : Rose α} (h : ∀ a ∈ t.preorder, f a = g a) : t.map f = t.map g := by
  induction t using induction with
  | h a cs ih =>
      have hcs : cs.map (map f) = cs.map (map g) :=
        List.map_congr_left fun c hc => ih c hc fun b hb =>
          h b (by simp only [preorder_node, List.mem_cons, List.mem_flatMap]; exact .inr ⟨c, hc, hb⟩)
      rw [map_node, map_node, h a (by simp), hcs]

theorem preorder_map (f : α → β) (t : Rose α) : (t.map f).preorder = t.preorder.map f := by
  induction t using induction with
  | h a cs ih =>
      rw [map_node, preorder_node, preorder_node, List.map_cons, List.map_flatMap, List.flatMap_map,
        List.flatMap_congr ih]

theorem flatMap_preorder_map (f : α → β) (ts : List (Rose α)) :
    (ts.map (map f)).flatMap preorder = (ts.flatMap preorder).map f := by
  rw [List.flatMap_map, List.map_flatMap]
  exact List.flatMap_congr fun t _ => preorder_map f t

theorem self_mem_preorder (t : Rose α) : t.self ∈ t.preorder := by
  cases t with
  | node a cs => simp

/-! ## Subtrees -/

mutual
def subtrees : Rose α → List (Rose α)
  | node a cs => node a cs :: subtreesAll cs
termination_by structural t => t

def subtreesAll : List (Rose α) → List (Rose α)
  | [] => []
  | t :: rest => subtrees t ++ subtreesAll rest
termination_by structural ts => ts
end

theorem subtreesAll_eq (cs : List (Rose α)) : subtreesAll cs = cs.flatMap subtrees := by
  induction cs with
  | nil => rfl
  | cons c cs ih => rw [subtreesAll, ih, List.flatMap_cons]

@[simp] theorem subtrees_node (a : α) (cs : List (Rose α)) :
    subtrees (node a cs) = node a cs :: cs.flatMap subtrees := by
  rw [subtrees, subtreesAll_eq]

theorem mem_subtrees_self (t : Rose α) : t ∈ t.subtrees := by
  cases t with
  | node a cs => simp

theorem preorder_eq_map_subtrees (t : Rose α) : t.preorder = t.subtrees.map self := by
  induction t using induction with
  | h a cs ih =>
      rw [preorder_node, subtrees_node, List.map_cons, self_node, List.map_flatMap, List.flatMap_congr ih]

theorem mem_subtrees_trans {s t u : Rose α} (hst : s ∈ t.subtrees) (htu : t ∈ u.subtrees) : s ∈ u.subtrees := by
  induction u using induction with
  | h a cs ih =>
      rw [subtrees_node, List.mem_cons] at htu
      rcases htu with rfl | htu
      · exact hst
      · obtain ⟨c, hc, htc⟩ := List.mem_flatMap.mp htu
        rw [subtrees_node]
        exact .tail _ (List.mem_flatMap.mpr ⟨c, hc, ih c hc htc⟩)

theorem mem_subtrees_of_mem_children {c s : Rose α} (hc : c ∈ s.children) : c ∈ s.subtrees := by
  cases s with
  | node a cs =>
      rw [subtrees_node]
      exact .tail _ (List.mem_flatMap.mpr ⟨c, hc, mem_subtrees_self c⟩)

theorem mem_preorder_of_mem_subtrees {s t : Rose α} {a : α} (hs : s ∈ t.subtrees) (ha : a ∈ s.preorder) :
    a ∈ t.preorder := by
  rw [preorder_eq_map_subtrees] at ha ⊢
  obtain ⟨u, hu, rfl⟩ := List.mem_map.mp ha
  exact List.mem_map.mpr ⟨u, mem_subtrees_trans hu hs, rfl⟩

theorem subtrees_map (f : α → β) (t : Rose α) : (t.map f).subtrees = t.subtrees.map (map f) := by
  induction t using induction with
  | h a cs ih =>
      rw [map_node, subtrees_node, subtrees_node, List.map_cons, map_node, List.map_flatMap, List.flatMap_map,
        List.flatMap_congr ih]

def IsChild (t : Rose α) (x y : α) : Prop := ∃ s ∈ t.subtrees, s.self = x ∧ y ∈ s.children.map self

theorem IsChild.mem_preorder {t : Rose α} {x y : α} (h : t.IsChild x y) : x ∈ t.preorder ∧ y ∈ t.preorder := by
  obtain ⟨s, hs, rfl, hy⟩ := h
  obtain ⟨c, hc, rfl⟩ := List.mem_map.mp hy
  exact ⟨mem_preorder_of_mem_subtrees hs (self_mem_preorder s),
    mem_preorder_of_mem_subtrees (mem_subtrees_trans (mem_subtrees_of_mem_children hc) hs) (self_mem_preorder c)⟩

theorem isChild_map_iff {f : α → β} {t : Rose α} {a b : β} :
    (t.map f).IsChild a b ↔ ∃ x y, t.IsChild x y ∧ f x = a ∧ f y = b := by
  simp only [IsChild, subtrees_map, List.mem_map]
  constructor
  · rintro ⟨_, ⟨s, hs, rfl⟩, hself, _, hd, hdb⟩
    rw [children_map, List.mem_map] at hd
    obtain ⟨c, hc, rfl⟩ := hd
    rw [self_map] at hself hdb
    exact ⟨s.self, c.self, ⟨s, hs, rfl, c, hc, rfl⟩, hself, hdb⟩
  · rintro ⟨x, y, ⟨s, hs, rfl, c, hc, rfl⟩, rfl, rfl⟩
    refine ⟨s.map f, ⟨s, hs, rfl⟩, self_map f s, c.map f, ?_, self_map f c⟩
    rw [children_map]
    exact List.mem_map_of_mem hc

/-! ## Following a map -/

/-- The children of every node carry the labels that `next` gives for the label of the node, in this order. -/
inductive Follows (next : α → List α) : Rose α → Prop
  | mk (a : α) (cs : List (Rose α)) (labels : cs.map self = next a) (below : ∀ c ∈ cs, Follows next c) :
      Follows next (node a cs)

theorem follows_node_iff {next : α → List α} {a : α} {cs : List (Rose α)} :
    Follows next (node a cs) ↔ cs.map self = next a ∧ ∀ c ∈ cs, Follows next c := by
  constructor
  · rintro ⟨_, _, labels, below⟩
    exact ⟨labels, below⟩
  · rintro ⟨labels, below⟩
    exact .mk a cs labels below

theorem Follows.labels {next : α → List α} {t : Rose α} (h : Follows next t) :
    t.children.map self = next t.self := by
  cases t with
  | node a cs => exact (follows_node_iff.mp h).1

theorem Follows.subtree {next : α → List α} {s t : Rose α} (h : Follows next t) (hs : s ∈ t.subtrees) :
    Follows next s := by
  induction t using induction with
  | h a cs ih =>
      rw [subtrees_node, List.mem_cons] at hs
      rcases hs with rfl | hs
      · exact h
      · obtain ⟨c, hc, hsc⟩ := List.mem_flatMap.mp hs
        exact ih c hc ((follows_node_iff.mp h).2 c hc) hsc

theorem Follows.isChild_iff {next : α → List α} {t : Rose α} (h : Follows next t) {x y : α} :
    t.IsChild x y ↔ x ∈ t.preorder ∧ y ∈ next x := by
  rw [preorder_eq_map_subtrees, List.mem_map]
  constructor
  · rintro ⟨s, hs, rfl, hy⟩
    exact ⟨⟨s, hs, rfl⟩, (h.subtree hs).labels ▸ hy⟩
  · rintro ⟨⟨s, hs, rfl⟩, hy⟩
    exact ⟨s, hs, rfl, (h.subtree hs).labels ▸ hy⟩

/-- A tree is determined by the map that it follows and by the label of its root. -/
theorem Follows.eq {next : α → List α} {s t : Rose α} (hs : Follows next s) (ht : Follows next t)
    (hself : s.self = t.self) : s = t := by
  induction s using induction generalizing t with
  | h a cs ih =>
      obtain ⟨b, ds⟩ := t
      obtain rfl : a = b := hself
      rw [follows_node_iff] at hs ht
      have hlabels : cs.map self = ds.map self := hs.1.trans ht.1.symm
      have hlength : cs.length = ds.length := by simpa using congrArg List.length hlabels
      suffices cs = ds by rw [this]
      refine List.ext_getElem hlength fun i hc hd => ?_
      have hi : (cs.map self)[i]? = (ds.map self)[i]? := by rw [hlabels]
      exact ih _ (List.getElem_mem hc) (hs.2 _ (List.getElem_mem hc)) (ht.2 _ (List.getElem_mem hd))
        (by simpa [hc, hd] using hi)

theorem Follows.congr {next next' : α → List α} {t : Rose α} (h : Follows next t)
    (hnext : ∀ a ∈ t.preorder, next a = next' a) : Follows next' t := by
  induction t using induction with
  | h a cs ih =>
      rw [follows_node_iff] at h ⊢
      refine ⟨h.1.trans (hnext a (by simp)), fun c hc => ih c hc (h.2 c hc) fun b hb => hnext b ?_⟩
      rw [preorder_node]
      exact .tail _ (List.mem_flatMap.mpr ⟨c, hc, hb⟩)

theorem length_preorder_le {s t : Rose α} (h : s ∈ t.subtrees) : s.preorder.length ≤ t.preorder.length := by
  induction t using induction with
  | h a cs ih =>
      rw [subtrees_node, List.mem_cons] at h
      rcases h with rfl | h
      · exact Nat.le_refl _
      · obtain ⟨c, hc, hsc⟩ := List.mem_flatMap.mp h
        have hle := ih c hc hsc
        have hsub := (List.sublist_flatten_of_mem (List.mem_map_of_mem (f := preorder) hc)).length_le
        rw [preorder_node, List.length_cons, List.flatMap]
        omega

/-- No label of a tree that follows a map stands above itself. -/
theorem Follows.not_mem_preorder_child {next : α → List α} {a : α} {cs : List (Rose α)} {c : Rose α}
    (h : Follows next (node a cs)) (hc : c ∈ cs) : a ∉ c.preorder := by
  intro ha
  rw [preorder_eq_map_subtrees, List.mem_map] at ha
  obtain ⟨s, hs, hself⟩ := ha
  -- the subtree with this label is the whole tree again, which is larger
  have heq : s = node a cs := (((follows_node_iff.mp h).2 c hc).subtree hs).eq h hself
  have hle := length_preorder_le hs
  have hsub := (List.sublist_flatten_of_mem (List.mem_map_of_mem (f := preorder) hc)).length_le
  rw [heq, preorder_node, List.length_cons, List.flatMap] at hle
  omega

/-! ## Putting trees behind the children of nodes -/

mutual
/-- The image of a tree, with the trees that `more` gives for a label behind the children of its node. -/
def extend (f : α → β) (more : α → List (Rose β)) : Rose α → Rose β
  | node a cs => node (f a) (extendAll f more cs ++ more a)
termination_by structural t => t

def extendAll (f : α → β) (more : α → List (Rose β)) : List (Rose α) → List (Rose β)
  | [] => []
  | t :: rest => extend f more t :: extendAll f more rest
termination_by structural ts => ts
end

theorem extendAll_eq (f : α → β) (more : α → List (Rose β)) (cs : List (Rose α)) :
    extendAll f more cs = cs.map (extend f more) := by
  induction cs with
  | nil => rfl
  | cons c cs ih => rw [extendAll, ih, List.map_cons]

@[simp] theorem extend_node (f : α → β) (more : α → List (Rose β)) (a : α) (cs : List (Rose α)) :
    extend f more (node a cs) = node (f a) (cs.map (extend f more) ++ more a) := by
  rw [extend, extendAll_eq]

@[simp] theorem self_extend (f : α → β) (more : α → List (Rose β)) (t : Rose α) :
    (t.extend f more).self = f t.self := by
  cases t with
  | node a cs => simp

theorem extend_congr {f f' : α → β} {more more' : α → List (Rose β)} {t : Rose α}
    (hf : ∀ a ∈ t.preorder, f a = f' a) (hmore : ∀ a ∈ t.preorder, more a = more' a) :
    t.extend f more = t.extend f' more' := by
  induction t using induction with
  | h a cs ih =>
      have hsub : ∀ c ∈ cs, ∀ b ∈ c.preorder, b ∈ (node a cs).preorder := fun c hc b hb => by
        rw [preorder_node]
        exact .tail _ (List.mem_flatMap.mpr ⟨c, hc, hb⟩)
      have hcs : cs.map (extend f more) = cs.map (extend f' more') :=
        List.map_congr_left fun c hc => ih c hc (fun b hb => hf b (hsub c hc b hb)) fun b hb =>
          hmore b (hsub c hc b hb)
      rw [extend_node, extend_node, hf a (by simp), hmore a (by simp), hcs]

theorem extend_nil (f : α → β) (t : Rose α) : t.extend f (fun _ => []) = t.map f := by
  induction t using induction with
  | h a cs ih => rw [extend_node, map_node, List.append_nil, List.map_congr_left ih]

theorem extend_extend (g : β → γ) (f : α → β) (more : β → List (Rose γ)) (first : α → List (Rose β))
    (t : Rose α) :
    (t.extend f first).extend g more =
      t.extend (g ∘ f) fun a => (first a).map (extend g more) ++ more (f a) := by
  induction t using induction with
  | h a cs ih =>
      have hcs : cs.map (extend g more ∘ extend f first) =
          cs.map (extend (g ∘ f) fun a => (first a).map (extend g more) ++ more (f a)) :=
        List.map_congr_left ih
      simp [hcs]

theorem map_extend (g : β → γ) (f : α → β) (more : α → List (Rose β)) (t : Rose α) :
    (t.extend f more).map g = t.extend (g ∘ f) fun a => (more a).map (map g) := by
  rw [← extend_nil, extend_extend]
  have hmap : extend g (fun _ => []) = map g := funext (extend_nil g)
  simp [hmap]

theorem Follows.extend {next : α → List α} {next' : β → List β} {f : α → β} {more : α → List (Rose β)}
    {t : Rose α} (h : Follows next t)
    (labels : ∀ a ∈ t.preorder, next' (f a) = (next a).map f ++ (more a).map self)
    (below : ∀ a ∈ t.preorder, ∀ c ∈ more a, Follows next' c) : Follows next' (t.extend f more) := by
  induction t using induction with
  | h a cs ih =>
      rw [follows_node_iff] at h
      rw [extend_node, follows_node_iff]
      have hsub : ∀ c ∈ cs, ∀ b ∈ c.preorder, b ∈ (node a cs).preorder := fun c hc b hb => by
        rw [preorder_node]
        exact .tail _ (List.mem_flatMap.mpr ⟨c, hc, hb⟩)
      constructor
      · rw [labels a (by simp), ← h.1, List.map_append, List.map_map, List.map_map]
        congr 1
        exact List.map_congr_left fun c _ => self_extend f more c
      · intro c hc
        rcases List.mem_append.mp hc with hc | hc
        · obtain ⟨d, hd, rfl⟩ := List.mem_map.mp hc
          exact ih d hd (h.2 d hd) (fun b hb => labels b (hsub d hd b hb))
            fun b hb => below b (hsub d hd b hb)
        · exact below a (by simp) c hc

/-! ## Trees with the same image -/

/-- Two forests with the same image have the same shape: they are the two sides of a forest of pairs. -/
theorem exists_zip {f : α → γ} {g : β → γ} {ts : List (Rose α)} {us : List (Rose β)}
    (h : ts.map (map f) = us.map (map g)) :
    ∃ ps : List (Rose (α × β)), ps.map (map Prod.fst) = ts ∧ ps.map (map Prod.snd) = us ∧
      ∀ p ∈ ps.flatMap preorder, f p.1 = g p.2 := by
  induction ts using induction_forest generalizing us with
  | nil =>
      obtain rfl := List.map_eq_nil_iff.mp h.symm
      exact ⟨[], rfl, rfl, by simp⟩
  | cons a cs rest ihcs ihrest =>
      obtain ⟨⟨b, ds⟩, us, rfl, hfirst, hrest⟩ := List.map_eq_cons_iff.mp h.symm
      rw [map_node, map_node] at hfirst
      obtain ⟨hlabel, hchildren⟩ := node.inj hfirst
      obtain ⟨ps, rfl, rfl, hps⟩ := ihcs hchildren.symm
      obtain ⟨qs, rfl, rfl, hqs⟩ := ihrest hrest.symm
      refine ⟨node (a, b) ps :: qs, by simp, by simp, fun p hp => ?_⟩
      rw [List.flatMap_cons, preorder_node, List.mem_append, List.mem_cons] at hp
      rcases hp with (rfl | hp) | hp
      · exact hlabel.symm
      · exact hps p hp
      · exact hqs p hp

/-- A forest with different labels is moved onto every forest that has the same image. -/
theorem exists_map_eq [Inhabited α] {f : α → γ} {g : β → γ} {ts : List (Rose α)}
    {us : List (Rose β)} (h : ts.map (map f) = us.map (map g)) (hdistinct : (us.flatMap preorder).Nodup) :
    ∃ place : β → α, ts = us.map (map place) ∧ ∀ b ∈ us.flatMap preorder, f (place b) = g b := by
  obtain ⟨ps, rfl, rfl, hps⟩ := exists_zip h
  rw [flatMap_preorder_map] at hdistinct ⊢
  have hexists : ∀ b, ∃ a, ∀ p ∈ ps.flatMap preorder, p.2 = b → p.1 = a := by
    intro b
    by_cases hb : ∃ p ∈ ps.flatMap preorder, p.2 = b
    · obtain ⟨p, hp, rfl⟩ := hb
      exact ⟨p.1, fun q hq hqp => by rw [List.inj_on_of_nodup_map hdistinct hq hp hqp]⟩
    · exact ⟨default, fun p hp hpb => absurd ⟨p, hp, hpb⟩ hb⟩
  choose place hplace using hexists
  refine ⟨place, ?_, fun b hb => ?_⟩
  · rw [List.map_map]
    refine List.map_congr_left fun p hp => ?_
    rw [Function.comp, map_map]
    exact map_congr fun q hq => hplace q.2 q (List.mem_flatMap.mpr ⟨p, hp, hq⟩) rfl
  · obtain ⟨p, hp, rfl⟩ := List.mem_map.mp hb
    rw [← hplace p.2 p hp rfl, hps p hp]

end Rose

end IndentMarkup
