import CodeAudit.Proofs.Python.FlowBoundary

/-!
# Trees in which one node is replaced

A statement inside a tree takes another form, and everything around it stays (`Encloses`). Nodes read of their parts no
more than a few names and flags (`Tree.face`). So where the two forms show the same, the nodes around them match
(`Encloses.matching`), and in preorder the trees differ in one place (`Encloses.preorder`).
-/

namespace CodeAudit.Python

open Proofs List Tree

/-! ## What a node shows to others -/

/-- What is read of a node where another one is looked at. -/
structure Face where
  role : Role
  name : Option String
  isCall : Bool
  lastName : Option String
  dottedName : String
  calleeName : String
  givesSafeLoader : Bool
  parameter : Option String
  positional : List String

namespace Tree

def parameter? (t : Tree) : Option String :=
  match t.tag with
  | .parameter name => some name.text
  | _ => none

def face (t : Tree) : Face :=
  ⟨t.role, t.name?, t.isCall, t.lastName?, t.dottedName, t.calleeName, t.givesSafeLoader, t.parameter?,
    (t.partsIn .positional).filterMap parameter?⟩

/-- Two nodes match: they differ at most in parts that show the same. -/
structure Matches (x x' : Tree) : Prop where
  tag : x.tag = x'.tag
  line : x.line = x'.line
  faces : x.parts.map face = x'.parts.map face

lemma Matches.refl (x : Tree) : x.Matches x := ⟨rfl, rfl, rfl⟩

section Faces

variable {x x' : Tree} (h : x.parts.map face = x'.parts.map face) (r : Role)

include h

lemma map_face_partsIn : (x.partsIn r).map face = (x'.partsIn r).map face := by
  have hfilter := congrArg (filter fun f : Face => f.role == r) h
  rwa [filter_map, filter_map] at hfilter

lemma calleeName_eq : x.calleeName = x'.calleeName := by
  have hread := congrArg (fun faces => (faces.head?.map Face.dottedName).getD "") (map_face_partsIn h .callee)
  simp only [head?_map, Option.map_map] at hread
  exact hread

lemma filterMap_name?_eq : (x.partsIn r).filterMap name? = (x'.partsIn r).filterMap name? := by
  have hread := congrArg (filterMap Face.name) (map_face_partsIn h r)
  rwa [filterMap_map, filterMap_map] at hread

lemma parameterNames_eq : x.parameterNames = x'.parameterNames := by
  have hread := congrArg (flatMap Face.positional) (map_face_partsIn h .parameters)
  rwa [flatMap_map, flatMap_map] at hread

lemma isRisky_eq (kind : CallKind) : isRisky kind x = isRisky kind x' := by
  have hread := congrArg (any · Face.givesSafeLoader) (map_face_partsIn h .keyword)
  simp only [any_map] at hread
  unfold isRisky
  rw [calleeName_eq h, show (x.partsIn .keyword).any givesSafeLoader = (x'.partsIn .keyword).any givesSafeLoader from hread]

lemma length_partsIn_eq : (x.partsIn r).length = (x'.partsIn r).length := by
  simpa only [length_map] using congrArg length (map_face_partsIn h r)

end Faces

/-- Nodes that match show the same where they stand in the same place. -/
lemma Matches.face_eq {x x' : Tree} (h : x.Matches x') (hrole : x.role = x'.role) : x.face = x'.face := by
  have hcallee := calleeName_eq h.faces
  have hpositional := congrArg (filterMap Face.parameter) (map_face_partsIn h.faces .positional)
  have hlast := congrArg (filterMap Face.lastName) h.faces
  rw [filterMap_map, filterMap_map] at hpositional hlast
  obtain ⟨htag, -, hfaces⟩ := h
  obtain ⟨role, tag, line, endLine, ps⟩ := x
  obtain ⟨role', tag', line', endLine', ps'⟩ := x'
  obtain rfl : role = role' := hrole
  obtain rfl : tag = tag' := htag
  have hdotted : (node role tag line endLine ps).dottedName = (node role tag line' endLine' ps').dottedName := by
    cases tag <;> try rfl
    -- an attribute goes on with its first part
    cases ps with
    | nil =>
      cases ps' with
      | nil => rfl
      | cons p' ps' => cases hfaces
    | cons p ps =>
      cases ps' with
      | nil => cases hfaces
      | cons p' ps' =>
        have hfirst : p.dottedName = p'.dottedName := congrArg Face.dottedName (cons.inj hfaces).1
        rw [dottedName, dottedName, hfirst]
  have hloader : (node role tag line endLine ps).givesSafeLoader = (node role tag line' endLine' ps').givesSafeLoader := by
    unfold givesSafeLoader
    rw [show (node role tag line endLine ps).parts.filterMap lastName? = _ from hlast]
    rfl
  unfold face
  rw [hcallee, hdotted, hloader, show (partsIn .positional (node role tag line endLine ps)).filterMap parameter? = _ from
    hpositional]
  cases tag <;> rfl

end Tree

/-! ## Replacement -/

/-- One tree is another one in which a node somewhere inside is replaced. -/
inductive Encloses (old new : Tree) : Tree → Tree → Prop
  | parent (role : Role) (tag : Tag) (line endLine : Nat) (before after : List Tree) :
    Encloses old new (.node role tag line endLine (before ++ old :: after))
      (.node role tag line endLine (before ++ new :: after))
  | above (role : Role) (tag : Tag) (line endLine : Nat) (before after : List Tree) {t t' : Tree}
    (h : Encloses old new t t') :
    Encloses old new (.node role tag line endLine (before ++ t :: after))
      (.node role tag line endLine (before ++ t' :: after))

/-- What holds of equal trees, of the two nodes and of nodes with such parts holds of trees around the two nodes. -/
lemma Encloses.rel (h : Encloses old new t t') (hrefl : ∀ x, R x x) (hnew : R old new)
    (hnode : ∀ role tag line endLine {ps ps' : List Tree}, Forall₂ R ps ps' →
      R (.node role tag line endLine ps) (.node role tag line endLine ps')) :
    R t t' := by
  -- beside the path to the node nothing changes
  have hparts : ∀ (before after : List Tree) {x x' : Tree}, R x x' →
      Forall₂ R (before ++ x :: after) (before ++ x' :: after) := fun before after _ _ hx =>
    rel_append (forall₂_same.mpr fun x _ => hrefl x) (.cons hx (forall₂_same.mpr fun x _ => hrefl x))
  induction h with
  | parent role tag line endLine before after => exact hnode _ _ _ _ (hparts before after hnew)
  | above role tag line endLine before after _ ih => exact hnode _ _ _ _ (hparts before after ih)

/-- Two trees are the same, or one node is replaced in them. -/
def Differs (old new x x' : Tree) : Prop := x = x' ∨ x = old ∧ x' = new ∨ Encloses old new x x'

lemma map_eq_of_same {f : Tree → β} (h : Forall₂ (fun x x' => f x = f x') xs xs') : xs.map f = xs'.map f :=
  (map_eq_of_forall₂ h fun _ _ => Eq.symm).symm

lemma visitDepthAll_le_iff : visitDepthAll v ts ≤ n ↔ ∀ t ∈ ts, t.visitDepth v ≤ n := by
  induction ts with
  | nil => simp [visitDepthAll]
  | cons t ts ih => rw [visitDepthAll, max_le_iff, ih, forall_mem_cons]

namespace Encloses

variable {old new t t' : Tree} (h : Encloses old new t t')

include h

lemma face_eq (hface : old.face = new.face) : t.face = t'.face :=
  h.rel (R := fun x x' => x.face = x'.face) (fun _ => rfl) hface fun _ _ _ _ _ _ hps =>
    Matches.face_eq ⟨rfl, rfl, map_eq_of_same hps⟩ rfl

/-- A node around two that show the same matches the one it becomes. -/
lemma matching (hface : old.face = new.face) : t.Matches t' := by
  cases h with
  | parent => exact ⟨rfl, rfl, by simp [parts, hface]⟩
  | above role tag line endLine before after h => exact ⟨rfl, rfl, by simp [parts, h.face_eq hface]⟩

lemma visitDepth_le (hnew : new.visitDepth v ≤ old.visitDepth v) : t'.visitDepth v ≤ t.visitDepth v := by
  refine h.rel (R := fun x x' => x'.visitDepth v ≤ x.visitDepth v) (fun _ => le_rfl) hnew ?_
  intro role tag line endLine ps ps' hps
  rw [visitDepth, visitDepth]
  refine Nat.add_le_add_left (max_le_max_left _ (visitDepthAll_le_iff.mpr fun p' hp' => ?_)) _
  obtain ⟨p, hp, hle⟩ := exists_mem_of_forall₂ hps hp'
  exact hle.trans (visitDepthAll_le_iff.mp le_rfl p hp)

/-- In preorder the trees have nodes around and before the replaced one, its own nodes and the same nodes after it. -/
lemma preorder : ∃ before before' after, t.preorder = before ++ (old.preorder ++ after) ∧
    t'.preorder = before' ++ (new.preorder ++ after) ∧
    Forall₂ (fun x x' => x = x' ∨ Encloses old new x x') before before' := by
  have hsame : ∀ xs : List Tree, Forall₂ (fun x x' => x = x' ∨ Encloses old new x x') xs xs :=
    fun xs => forall₂_same.mpr fun _ _ => .inl rfl
  induction h with
  | parent role tag line endLine before after =>
    refine ⟨_ :: preorderAll before, _ :: preorderAll before, preorderAll after, ?_, ?_,
      .cons (.inr (.parent role tag line endLine before after)) (hsame _)⟩
    · rw [Tree.preorder, preorderAll_append, Tree.preorderAll, cons_append]
    · rw [Tree.preorder, preorderAll_append, Tree.preorderAll, cons_append]
  | above role tag line endLine before after h ih =>
    obtain ⟨inner, inner', rest, hinner, hinner', hpairs⟩ := ih
    -- the node itself comes first, then all before the part on the path, then the part
    refine ⟨_ :: (preorderAll before ++ inner), _ :: (preorderAll before ++ inner'),
      rest ++ preorderAll after, ?_, ?_, .cons (.inr (.above role tag line endLine before after h))
      (rel_append (hsame _) hpairs)⟩
    · rw [Tree.preorder, preorderAll_append, Tree.preorderAll, hinner]
      simp only [cons_append, append_assoc]
    · rw [Tree.preorder, preorderAll_append, Tree.preorderAll, hinner']
      simp only [cons_append, append_assoc]

end Encloses

/-! ## Visits to nodes that match -/

namespace Tree

variable {x x' : Tree}

lemma eq_of_tag_eq {g : Tree → β} (h : x.tag = x'.tag)
    (hg : ∀ tag role line endLine ps role' line' endLine' ps',
      g (node role tag line endLine ps) = g (node role' tag line' endLine' ps') := by
        intro tag; cases tag <;> intros <;> rfl) :
    g x = g x' := by
  cases x
  cases x'
  cases h
  exact hg _ _ _ _ _ _ _ _ _

lemma Matches.assignedSource?_eq (h : x.Matches x') : x.assignedSource? = x'.assignedSource? := by
  have hread : ∀ t : Tree, t.assignedSource? = if t.isAssign then ((t.partsIn .value).map face).head?.bind fun value =>
      if value.isCall && taintSources.contains value.calleeName then some value.calleeName else none else none := by
    intro t
    unfold assignedSource?
    rw [head?_map]
    cases (t.partsIn .value).head? <;> rfl
  rw [hread, hread, map_face_partsIn h.faces, eq_of_tag_eq (g := isAssign) h.tag]

lemma Matches.taintedTargets_eq (h : x.Matches x') : x.taintedTargets = x'.taintedTargets := by
  unfold taintedTargets
  rw [h.assignedSource?_eq, filterMap_name?_eq h.faces]

lemma Matches.assigns_eq (h : x.Matches x') (v : String) : x.assigns v = x'.assigns v := by
  rw [Bool.eq_iff_iff, ← mem_taintedTargets_iff, ← mem_taintedTargets_iff, h.taintedTargets_eq]

lemma Matches.see_eq (h : x.Matches x') (visit : TaintVisit) : visit.see x = visit.see x' := by
  unfold TaintVisit.see Taints.after Taints.reached
  rw [h.assignedSource?_eq, h.taintedTargets_eq, h.line, calleeName_eq h.faces, filterMap_name?_eq h.faces,
    eq_of_tag_eq (g := isCall) h.tag]

/-- A node that neither assigns nor calls leaves a visit as it is. -/
lemma see_eq_self (hassign : x.isAssign = false) (hcall : x.isCall = false) (visit : TaintVisit) :
    visit.see x = visit := by
  unfold TaintVisit.see Taints.after Taints.reached assignedSource?
  rw [hassign, hcall]
  rfl

end Tree

/-!
## Other forms of a statement

An assignment can have a type, and a function can be asynchronous; the analyses know neither form.

The visits with and without a type start the same nodes with different sources of one variable, and what they find
differs exactly if the variable is handed to a sink before it gets another source (`Taints.found_eq_iff`).

An asynchronous function has no record and no place in the index. What is measured on a function around it stays
(`Encloses.ofTree_eq`), but its parameters are not looked at.
-/

open TaintVisit Value Audit

/-! ## Runs that start with another source of one variable -/

/-- Whether a node hands a variable to a sink. -/
def Tree.hands (v : String) (c : Tree) : Bool := c.isSinkCall && ((c.partsIn .argument).filterMap name?).contains v

/-- Whether a variable is handed to a sink before a node assigns the result of an outside call to it. -/
def isExposed (v : String) : List Tree → Bool
  | [] => false
  | c :: rest => c.hands v || (!c.assigns v && isExposed v rest)

namespace Taints

def found (taints : Taints) : List Tree → List TaintFinding
  | [] => []
  | c :: rest => taints.reached c ++ (taints.after c).found rest

lemma latest_foldl_see (visit : TaintVisit) (nodes : List Tree) :
    (nodes.foldl see visit).latest.reverse = visit.latest.reverse ++ visit.taints.found nodes := by
  induction nodes generalizing visit with
  | nil => rw [found, append_nil, foldl_nil]
  | cons c nodes ih =>
    rw [foldl_cons, ih, found, see, reverse_append, reverse_reverse, append_assoc]

lemma mem_reached_iff {taints : Taints} : f ∈ taints.reached c ↔
    c.hands f.var ∧ taints.source? f.var = some f.source ∧ f.sink = { line := c.line, call := c.calleeName } := by
  unfold reached hands
  change f ∈ (if c.isSinkCall = true then _ else _) ↔ _
  cases c.isSinkCall with
  | false => simp
  | true =>
    simp only [if_true, mem_filterMap, Option.map_eq_some_iff, Bool.true_and, contains_iff_mem]
    constructor
    · rintro ⟨v, hv, source, hsource, rfl⟩
      exact ⟨hv, hsource, rfl⟩
    · rintro ⟨hv, hsource, hsink⟩
      exact ⟨f.var, hv, f.source, hsource, by rw [← hsink]⟩

lemma found_congr {s s' : Taints} (h : ∀ w, s.source? w = s'.source? w) (nodes : List Tree) :
    s.found nodes = s'.found nodes := by
  induction nodes generalizing s s' with
  | nil => rfl
  | cons c nodes ih =>
    have hafter : ∀ w, (s.after c).source? w = (s'.after c).source? w := fun w => by
      rw [source?_after, source?_after, h]
    rw [found, found, ih hafter, reached, reached, funext h]

section OneVariable

variable {s s' : Taints} {v : String} (hothers : ∀ w, w ≠ v → s.source? w = s'.source? w) {source : Sighting}

include hothers

lemma after_of_assigns (h : c.assigns v) (w : String) : (s.after c).source? w = (s'.after c).source? w := by
  rw [source?_after, source?_after]
  by_cases hw : w = v
  · rw [hw, if_pos h, if_pos h]
  · rw [hothers w hw]

lemma after_others (c : Tree) (w : String) (hw : w ≠ v) : (s.after c).source? w = (s'.after c).source? w := by
  rw [source?_after, source?_after, hothers w hw]

/-- A variable that is not exposed may have any source. -/
lemma found_eq_of_not_exposed (h : isExposed v nodes = false) : s.found nodes = s'.found nodes := by
  induction nodes generalizing s s' with
  | nil => rfl
  | cons c nodes ih =>
    rw [isExposed, Bool.or_eq_false_iff] at h
    have hreached : s.reached c = s'.reached c := by
      unfold reached
      change (if c.isSinkCall = true then _ else _) = if c.isSinkCall = true then _ else _
      split
      · next hsink =>
        refine filterMap_congr fun w hw => ?_
        rw [hothers w]
        rintro rfl
        have hhands : c.hands w := Bool.and_eq_true_iff.mpr ⟨hsink, contains_iff_mem.mpr hw⟩
        rw [h.1] at hhands
        cases hhands
      · rfl
    rw [found, found, hreached]
    congr 1
    -- the first node that assigns the variable gives both runs the same sources
    cases hassigns : c.assigns v with
    | true => exact found_congr (after_of_assigns hothers hassigns) nodes
    | false =>
      rw [hassigns] at h
      exact ih (after_others hothers c) h.2

/-- A variable that is exposed is found with its own source more often. -/
lemma countP_found_le (hs : s.source? v = some source) (hs' : s'.source? v ≠ some source)
    (nodes : List Tree) : let own := fun f : TaintFinding => f.var == v && f.source == source
    (s'.found nodes).countP own + (isExposed v nodes).toNat ≤ (s.found nodes).countP own := by
  intro own
  induction nodes generalizing s s' with
  | nil => simp [found, isExposed]
  | cons c nodes ih =>
    have hnone : (s'.reached c).countP own = 0 := by
      rw [countP_eq_zero]
      intro f hf hown
      obtain ⟨-, hsource, -⟩ := mem_reached_iff.mp hf
      obtain ⟨hvar, hsame⟩ := Bool.and_eq_true_iff.mp hown
      rw [beq_iff_eq.mp hvar, beq_iff_eq.mp hsame] at hsource
      exact hs' hsource
    have hsome : (c.hands v).toNat ≤ (s.reached c).countP own := by
      cases hhands : c.hands v with
      | false => exact Nat.zero_le _
      | true =>
        refine countP_pos_iff.mpr ⟨⟨v, source, ⟨c.line, c.calleeName⟩⟩, mem_reached_iff.mpr ⟨hhands, hs, rfl⟩, ?_⟩
        simp [own]
    rw [found, found, isExposed, countP_append, countP_append, hnone]
    cases hassigns : c.assigns v with
    | true =>
      -- only this node can tell the sources apart
      rw [found_congr (after_of_assigns hothers hassigns) nodes]
      simp only [Bool.not_true, Bool.false_and, Bool.or_false]
      omega
    | false =>
      -- both runs go on with the sources of the variable that they had
      have hafter : ∀ taints : Taints, (taints.after c).source? v = taints.source? v := fun taints => by
        rw [source?_after, hassigns]
        rfl
      have hrest := ih (after_others hothers c) (by rw [hafter, hs]) (by rwa [hafter])
      have hor : (c.hands v || isExposed v nodes).toNat ≤ (c.hands v).toNat + (isExposed v nodes).toNat := by
        cases c.hands v <;> cases isExposed v nodes <;> decide
      simp only [Bool.not_false, Bool.true_and]
      omega

/-- What a run finds tells the source that a variable has at its start exactly if the variable is exposed. -/
lemma found_eq_iff (hs : s.source? v = some source) (nodes : List Tree) :
    s'.found nodes = s.found nodes ↔ (isExposed v nodes → s'.source? v = some source) := by
  constructor
  · intro heq hexposed
    by_contra hs'
    have hle := countP_found_le hothers hs hs' nodes
    rw [heq, hexposed] at hle
    exact absurd hle (by simp)
  · intro h
    cases hexposed : isExposed v nodes with
    | false => exact (found_eq_of_not_exposed hothers hexposed).symm
    | true =>
      refine found_congr (fun w => ?_) nodes
      by_cases hw : w = v
      · rw [hw, hs, h hexposed]
      · exact (hothers w hw).symm

end OneVariable

end Taints

/-! ## Annotated assignments -/

/-- An assignment of a value to a variable, and a name that can be its type. -/
structure Assignment where
  role : Role
  line : Nat
  endLine : Nat
  target : Identifier
  hint : Identifier
  value : Tree

namespace Assignment

variable (a : Assignment)

def plain : Tree := .node a.role .assign a.line a.endLine
  [.node .target (.name a.target) a.line a.line [], a.value.inRole .value]

def annotated : Tree := .node a.role .annotatedAssign a.line a.endLine
  [.node .target (.name a.target) a.line a.line [], .node .note (.name a.hint) a.line a.line [], a.value.inRole .value]

def inner : List Tree := (a.value.inRole .value).preorder

def isTainting : Bool := a.value.isCall && taintSources.contains a.value.calleeName

lemma face_eq : a.plain.face = a.annotated.face := by
  obtain ⟨role, line, endLine, target, hint, ⟨r, tag, l, e, ps⟩⟩ := a
  rfl

lemma assigns_plain (v : String) : a.plain.assigns v = (a.target.text == v && a.isTainting) := by
  have hcall : (a.value.inRole .value).isCall = a.value.isCall :=
    eq_of_tag_eq (by cases a.value; rfl)
  obtain ⟨role, line, endLine, target, hint, ⟨r, tag, l, e, ps⟩⟩ := a
  unfold isTainting
  rw [← hcall]
  change (true && (some target.text == some v || false) && _) = _
  rw [Bool.true_and, Bool.or_false]
  rfl

lemma preorder_plain : a.plain.preorder = a.plain :: .node .target (.name a.target) a.line a.line [] :: a.inner := by
  simp [plain, inner, preorder, preorderAll]

lemma preorder_annotated : a.annotated.preorder = a.annotated :: .node .target (.name a.target) a.line a.line [] ::
    .node .note (.name a.hint) a.line a.line [] :: a.inner := by
  simp [annotated, inner, preorder, preorderAll]

lemma visitDepth_annotated_le : a.annotated.visitDepth tainting ≤ a.plain.visitDepth tainting := by
  simp only [annotated, plain, visitDepth, visitDepthAll, tainting, unshown]
  omega

lemma assignedCall_plain : a.plain.assignedCall = a.value.calleeName := by
  obtain ⟨role, line, endLine, target, hint, ⟨r, tag, l, e, ps⟩⟩ := a
  rfl

end Assignment

lemma toRecord_injective : Function.Injective TaintFinding.toRecord := by
  rintro ⟨v, ⟨line, call⟩, ⟨sinkLine, sink⟩⟩ ⟨v', ⟨line', call'⟩, ⟨sinkLine', sink'⟩⟩ h
  simp only [TaintFinding.toRecord, Sighting.toValue, nat, cons.injEq, Prod.mk.injEq, list.injEq,
    tuple.injEq, int.injEq, str.injEq, Int.ofNat_inj, true_and, and_true] at h
  obtain ⟨⟨rfl, rfl⟩, rfl, rfl, rfl, -⟩ := h
  rfl

variable {xs xs' : List Tree} {t : Tree} {files : FileTree}

lemma foldl_see_of_matches (h : Forall₂ Matches xs xs') (visit : TaintVisit) :
    xs.foldl see visit = xs'.foldl see visit := by
  induction h generalizing visit with
  | nil => rfl
  | cons hx _ ih => rw [foldl_cons, foldl_cons, hx.see_eq, ih]

/-- The nodes in preorder of a tree with an assignment and of the tree in which it has its type. -/
structure Assignment.Splits (a : Assignment) (t t' : Tree) (before before' after : List Tree) : Prop where
  plain : t.preorder = before ++ (a.plain.preorder ++ after)
  annotated : t'.preorder = before' ++ (a.annotated.preorder ++ after)
  before : Forall₂ Matches before before'

lemma Assignment.exists_splits (a : Assignment) (h : Encloses a.plain a.annotated t t') :
    ∃ before before' after, a.Splits t t' before before' after := by
  obtain ⟨before, before', after, hplain, hannotated, hpairs⟩ := h.preorder
  refine ⟨before, before', after, hplain, hannotated, hpairs.imp fun x x' hx => ?_⟩
  rcases hx with rfl | hx
  · exact .refl x
  · exact hx.matching a.face_eq

namespace Assignment.Splits

variable {a : Assignment} {t t' : Tree} {before before' after : List Tree} (h : a.Splits t t' before before' after)

include h

lemma mem_flowSources_iff (v : String) : v ∈ flowSources t ↔ v ∈ flowSources t' ∨ a.plain.assigns v := by
  have hbefore : before.any (assigns v) = before'.any (assigns v) := by
    have hmap := congrArg (any · id) (map_eq_of_same (h.before.imp fun _ _ hx => hx.assigns_eq v))
    simp only [any_map] at hmap
    exact hmap
  have hnames : ∀ role id, assigns v (.node role (.name id) a.line a.line []) = false := fun _ _ => rfl
  have hnew : a.annotated.assigns v = false := rfl
  rw [Python.mem_flowSources_iff, Python.mem_flowSources_iff, ← any_eq_true, ← any_eq_true, h.plain, h.annotated,
    a.preorder_plain, a.preorder_annotated]
  simp only [any_append, any_cons, hbefore, hnames, hnew, Bool.false_or, Bool.or_eq_true]
  tauto

lemma taintFindings_eq : let taints := (before.foldl see {}).taints
    ∃ early, taintFindings t = early ++ (taints.after a.plain).found (a.inner ++ after) ∧
      taintFindings t' = early ++ taints.found (a.inner ++ after) := by
  intro taints
  have hnames : ∀ role id (visit : TaintVisit), visit.see (.node role (.name id) a.line a.line []) = visit :=
    fun _ _ visit => see_eq_self rfl rfl visit
  refine ⟨(before.foldl see {}).latest.reverse, ?_, ?_⟩
  · unfold taintFindings
    rw [enter_eq_foldl, h.plain, a.preorder_plain, foldl_append, cons_append, cons_append, foldl_cons,
      foldl_cons, hnames, Taints.latest_foldl_see]
    rfl
  · unfold taintFindings
    rw [enter_eq_foldl, h.annotated, a.preorder_annotated, foldl_append, ← foldl_see_of_matches h.before]
    simp only [cons_append, foldl_cons]
    rw [see_eq_self (x := a.annotated) rfl rfl, hnames, hnames, Taints.latest_foldl_see]

end Assignment.Splits

/-- **Annotations and taint.** A type leaves the sources of a tree around an assignment as they are exactly if the
value comes from no outside call or another assignment gives the variable the result of one. It leaves the findings
exactly if the value comes from no outside call, or the variable is not exposed after it or has the same source from
before. -/
theorem annotation_keeps_taint_iff (a : Assignment) {t t' : Tree} (h : Encloses a.plain a.annotated t t') :
    ((∀ v, v ∈ flowSources t' ↔ v ∈ flowSources t) ↔ (a.isTainting = true → a.target.text ∈ flowSources t')) ∧
    (∃ before before' after, a.Splits t t' before before' after) ∧
    ∀ before before' after, a.Splits t t' before before' after →
      ∀ room documents, taintTree t room = .ok documents → ∃ documents', taintTree t' room = .ok documents' ∧
        (documents' = documents ↔ (a.isTainting = true → isExposed a.target.text (a.inner ++ after) = true →
          (lastAssigning? before a.target.text).map (fun x => (⟨x.line, x.assignedCall⟩ : Sighting)) =
            some ⟨a.line, a.value.calleeName⟩)) := by
  refine ⟨?_, a.exists_splits h, fun before before' after hsplit room documents hdocuments => ?_⟩
  · obtain ⟨before, before', after, hsplit⟩ := a.exists_splits h
    constructor
    · intro hsame htainting
      refine (hsame _).mpr ((hsplit.mem_flowSources_iff _).mpr (.inr ?_))
      rw [a.assigns_plain, htainting, beq_self_eq_true, Bool.and_self]
    · intro hother v
      rw [hsplit.mem_flowSources_iff, a.assigns_plain, Bool.and_eq_true, beq_iff_eq]
      refine ⟨.inl, ?_⟩
      rintro (hv | ⟨rfl, htainting⟩)
      · exact hv
      · exact hother htainting
  · obtain ⟨_, hvisit, hfindings⟩ := bind_eq_ok_iff.mp hdocuments
    have hdepth := (h.visitDepth_le a.visitDepth_annotated_le).trans (visitable_eq_ok_iff.mp hvisit)
    refine ⟨_, bind_eq_ok_iff.mpr ⟨(), visitable_eq_ok_iff.mpr hdepth, rfl⟩, ?_⟩
    obtain ⟨early, hold, hnew⟩ := hsplit.taintFindings_eq
    have hlast := (knows_nil.run before).source a.target.text
    rw [nil_append] at hlast
    rw [← Except.ok.inj hfindings, (map_injective_iff.mpr toRecord_injective).eq_iff, hold, hnew, append_right_inj,
      ← hlast]
    have hafter := fun v => source?_after (before.foldl see {}).taints a.plain v
    simp only [a.assigns_plain] at hafter
    -- both visits come to the value with the same findings; their sources differ in the target at most
    cases htainting : a.isTainting with
    | false =>
      simp only [htainting, Bool.and_false, Bool.false_eq_true, if_false] at hafter
      exact ⟨fun _ => nofun, fun _ => (Taints.found_congr hafter _).symm⟩
    | true =>
      simp only [htainting, Bool.and_true] at hafter
      have hothers : ∀ w, w ≠ a.target.text → ((before.foldl see {}).taints.after a.plain).source? w =
          (before.foldl see {}).taints.source? w := fun w hw => by
        rw [hafter, if_neg (fun heq => hw (beq_iff_eq.mp heq).symm)]
      have hsource := hafter a.target.text
      rw [if_pos (beq_self_eq_true _), a.assignedCall_plain] at hsource
      rw [Taints.found_eq_iff hothers hsource]
      exact ⟨fun h _ => h, fun h => h rfl⟩

def inputOfX : Assignment where
  role := .body
  line := 1
  endLine := 1
  target := ⟨"y", by decide⟩
  hint := ⟨"T", by decide⟩
  value := readingX

def thenEvaluatesY (first : Tree) : Tree := .node .part .module 1 2 ([] ++ first :: [.node .body .exprStmt 2 2
  [.node .part .call 2 2
    [.node .callee (.name ⟨"eval", by decide⟩) 2 2 [], .node .argument (.name ⟨"y", by decide⟩) 2 2 []]]])

theorem annotation_hides_inputOfX :
    Encloses inputOfX.plain inputOfX.annotated (thenEvaluatesY inputOfX.plain) (thenEvaluatesY inputOfX.annotated) ∧
    ¬ (∀ v, v ∈ flowSources (thenEvaluatesY inputOfX.annotated) ↔ v ∈ flowSources (thenEvaluatesY inputOfX.plain)) ∧
    ∃ documents documents', taintTree (thenEvaluatesY inputOfX.plain) = .ok documents ∧
      taintTree (thenEvaluatesY inputOfX.annotated) = .ok documents' ∧ documents' ≠ documents := by
  have h : Encloses inputOfX.plain inputOfX.annotated (thenEvaluatesY inputOfX.plain) (thenEvaluatesY inputOfX.annotated) :=
    .parent _ _ _ _ [] _
  obtain ⟨hsources, -, hfindings⟩ := annotation_keeps_taint_iff inputOfX h
  have htainting : inputOfX.isTainting = true := by decide +kernel
  refine ⟨h, fun hsame => ?_, ?_⟩
  · exact absurd (mem_flowSources_iff.mp (hsources.mp hsame htainting)) (by decide +kernel)
  · obtain ⟨documents', hdocuments', hiff⟩ :=
      hfindings [_] [_] _ ⟨rfl, rfl, .cons (h.matching inputOfX.face_eq) .nil⟩ usualRoom _ rfl
    refine ⟨_, documents', rfl, hdocuments', fun heq => ?_⟩
    exact absurd (hiff.mp heq htainting (by decide +kernel)) (by decide +kernel)

/-! ## Asynchronous functions -/

/-- The definition of a function, which can be made asynchronous. -/
structure Declaration where
  role : Role
  name : Identifier
  line : Nat
  endLine : Nat
  parts : List Tree

namespace Declaration

variable (d : Declaration)

def plain : Tree := .node d.role (.functionDef d.name) d.line d.endLine d.parts

def async : Tree := .node d.role (.asyncFunctionDef d.name) d.line d.endLine d.parts

lemma face_eq : d.plain.face = d.async.face := rfl

/-- A record stays as it is but for the sensitive parameters of the function. -/
def LosesNames (r r' : FunctionRecord) : Prop :=
  r = { r' with sensitiveNames := r.sensitiveNames } ∧ ∀ v, v ∈ r.sensitiveNames ↔
    v ∈ r'.sensitiveNames ∨ isSensitive v ∧ v ∈ d.plain.parameterNames

end Declaration

lemma functionRecords_eq (t : Tree) : functionRecords t =
    (t.preorder.filterMap fun f => f.functionName?.map (·, f)).map fun f => .ofTree f.1 f.2 := by
  unfold functionRecords
  rw [map_filterMap]
  refine filterMap_congr fun f _ => ?_
  cases f.functionName? <;> rfl

lemma map_filter_eq_of_forall₂
    (h : Forall₂ (fun x x' => p x = p x' ∧ f x = f x') xs xs') : (xs.filter p).map f = (xs'.filter p).map f := by
  induction h with
  | nil => rfl
  | cons hx _ ih =>
    rw [filter_cons, filter_cons, hx.1]
    split
    · rw [map_cons, map_cons, hx.2, ih]
    · exact ih

namespace Differs

variable {d : Declaration} {x x' : Tree} (h : Differs d.plain d.async x x')

include h

lemma face_eq : x.face = x'.face := by
  rcases h with rfl | ⟨rfl, rfl⟩ | h
  · rfl
  · exact d.face_eq
  · exact h.face_eq d.face_eq

lemma faces_eq : x.parts.map face = x'.parts.map face := by
  rcases h with rfl | ⟨rfl, rfl⟩ | h
  · rfl
  · rfl
  · exact (h.matching d.face_eq).faces

lemma branches_eq : x.branches = x'.branches := by
  rcases h with rfl | ⟨rfl, rfl⟩ | h
  · rfl
  · rfl
  · exact eq_of_tag_eq (h.matching d.face_eq).tag

lemma parts : Forall₂ (Differs d.plain d.async) x.parts x'.parts := by
  have hsame : ∀ xs : List Tree, Forall₂ (Differs d.plain d.async) xs xs :=
    fun xs => forall₂_same.mpr fun _ _ => .inl rfl
  rcases h with rfl | ⟨rfl, rfl⟩ | h
  · exact hsame _
  · exact hsame _
  · cases h with
    | parent role tag line endLine before after =>
      exact rel_append (hsame before) (.cons (.inr (.inl ⟨rfl, rfl⟩)) (hsame after))
    | above role tag line endLine before after h =>
      exact rel_append (hsame before) (.cons (.inr (.inr h)) (hsame after))

end Differs

lemma forall₂_levels {d : Declaration} (h : Forall₂ (Differs d.plain d.async) ts ts') :
    Forall₂ (Differs d.plain d.async) (levels n ts) (levels n ts') := by
  induction n generalizing ts ts' with
  | zero => exact .nil
  | succ n ih => exact rel_append h (ih (rel_flatMap h fun _ _ hx => hx.parts))

namespace Encloses

variable {d : Declaration} {t t' : Tree} (h : Encloses d.plain d.async t t')

include h

lemma height_eq : t.height = t'.height := by
  refine h.rel (R := fun x x' => x.height = x'.height) (fun _ => rfl) rfl fun role tag line endLine {ps ps'} hps => ?_
  rw [height, height]
  congr 1
  induction hps with
  | nil => rfl
  | cons hp _ ih => rw [heightAll, heightAll, hp, ih]

lemma nesting_eq : t.nesting = t'.nesting := by
  refine (h.rel (R := fun x x' => x.role = x'.role ∧ x.nesting = x'.nesting) (fun _ => ⟨rfl, rfl⟩) ⟨rfl, rfl⟩
    fun role tag line endLine {ps ps'} hps => ⟨rfl, ?_⟩).2
  rw [nesting, nesting]
  induction hps with
  | nil => rfl
  | cons hp _ ih => rw [nestingAll, nestingAll, hp.1, hp.2, ih]

lemma levelOrder : Forall₂ (Differs d.plain d.async) t.levelOrder t'.levelOrder := by
  unfold Tree.levelOrder
  rw [h.height_eq]
  exact forall₂_levels (.cons (.inr (.inr h)) .nil)

lemma ofTree_eq (name : String) : FunctionRecord.ofTree name t =
    { FunctionRecord.ofTree name t' with sensitiveNames := t.sensitiveNames } := by
  have hmatching := h.matching d.face_eq
  have hcalls : t.calls.map calleeName = t'.calls.map calleeName :=
    map_filter_eq_of_forall₂ (h.levelOrder.imp fun _ _ hx =>
      ⟨congrArg Face.isCall hx.face_eq, congrArg Face.calleeName hx.face_eq⟩)
  have hrisky : ∀ kind, t.riskyCalls kind = t'.riskyCalls kind := fun kind => by
    unfold riskyCalls calls
    rw [filter_filter, filter_filter]
    refine map_filter_eq_of_forall₂ (h.levelOrder.imp fun x x' hx => ⟨?_, congrArg Face.calleeName hx.face_eq⟩)
    rw [isRisky_eq hx.faces_eq, show x.isCall = x'.isCall from congrArg Face.isCall hx.face_eq]
  have hcomplexity : t.complexity = t'.complexity := by
    have hbranches := congrArg (countP id) (map_eq_of_same (h.levelOrder.imp fun _ _ hx => hx.branches_eq))
    simp only [countP_map] at hbranches
    exact congrArg (· + 1) hbranches
  unfold FunctionRecord.ofTree inputChecks
  rw [hmatching.line, length_partsIn_eq hmatching.faces, funext hrisky, hcomplexity, h.nesting_eq, hcalls]

lemma mem_sensitiveNames_iff (v : String) : v ∈ t.sensitiveNames ↔
    v ∈ t'.sensitiveNames ∨ isSensitive v ∧ v ∈ d.plain.parameterNames := by
  have hread : ∀ x : Tree, v ∈ x.sensitiveNames ↔ isSensitive v ∧ v ∈ x.preorder.flatMap namesBound := by
    intro x
    unfold sensitiveNames
    rw [Text.mem_sortedSet, mem_filter, and_comm]
    simp only [mem_flatMap, mem_levelOrder_iff]
  obtain ⟨before, before', after, hplain, hasync, hpairs⟩ := h.preorder
  have hbefore : before.flatMap namesBound = before'.flatMap namesBound := by
    have hmap := congrArg flatten (map_eq_of_same (f := namesBound) (hpairs.imp fun x x' hx => ?_))
    · rwa [← flatMap_def, ← flatMap_def] at hmap
    · rcases hx with rfl | hx
      · rfl
      · have hmatching := hx.matching d.face_eq
        unfold namesBound
        rw [eq_of_tag_eq (g := isAssign) hmatching.tag, eq_of_tag_eq (g := functionName?) hmatching.tag,
          filterMap_name?_eq hmatching.faces, parameterNames_eq hmatching.faces]
  -- the nodes of the function are the same but for the first one, which binds the parameters only if it is plain
  rw [hread, hread, hplain, hasync, preorder_eq d.plain, preorder_eq d.async]
  simp only [flatMap_append, flatMap_cons, hbefore, mem_append]
  rw [show d.plain.namesBound = d.plain.parameterNames from rfl, show d.async.namesBound = [] from rfl,
    show d.plain.parts = d.async.parts from rfl]
  simp only [not_mem_nil, false_or]
  tauto

/-- The definitions of functions in preorder: one of them is gone, and some before it have others in their place. -/
lemma functions : ∃ before before' after, t.preorder.filterMap (fun f => f.functionName?.map (·, f)) =
      before ++ (d.name.text, d.plain) :: after ∧
    t'.preorder.filterMap (fun f => f.functionName?.map (·, f)) = before' ++ after ∧
    Forall₂ (fun f f' => f.1 = f'.1 ∧ (f.2 = f'.2 ∨ Encloses d.plain d.async f.2 f'.2)) before before' := by
  obtain ⟨before, before', after, hplain, hasync, hpairs⟩ := h.preorder
  rw [hplain, hasync, preorder_eq d.plain, preorder_eq d.async]
  simp only [filterMap_append, filterMap_cons]
  refine ⟨_, _, _, rfl, rfl, rel_filterMap (fun x x' hx => ?_) hpairs⟩
  have hname : x.functionName? = x'.functionName? := by
    rcases hx with rfl | hx
    · rfl
    · exact eq_of_tag_eq (hx.matching d.face_eq).tag
  rw [hname]
  cases x'.functionName? with
  | none => exact .none
  | some name => exact .some ⟨rfl, hx⟩

end Encloses

/-! ### The index of a project -/

/-- Two projects that differ in the text of one Python file. -/
structure OneFileChanged (files files' : FileTree) (path file : String) (t t' : Tree) : Prop where
  home : files'.home = files.home
  walk : files'.walk path = files.walk path
  others : ∀ other ∈ pythonFiles files path, other ≠ file → files'.text .refuse other = files.text .refuse other
  listed : file ∈ pythonFiles files path
  old : treeOfFile files file = .ok t
  new : treeOfFile files' file = .ok t'

lemma mem_functionsOf_iff : f ∈ functionsOf t ↔ f ∈ t.preorder.filterMap fun f => f.functionName?.map (·, f) := by
  unfold functionsOf
  simp only [mem_filterMap, mem_levelOrder_iff]

lemma mem_definitions_iff :
    e ∈ definitions files path ↔ ∃ file ∈ pythonFiles files path, ∃ t, treeOfFile files file = .ok t ∧
      ∃ f ∈ functionsOf t, e = ⟨Path.relative file path files.home ++ "::" ++ f.1, file, f.2⟩ := by
  unfold definitions
  rw [mem_flatMap]
  refine exists_congr fun file => and_congr_right fun _ => ?_
  unfold definitionsOfFile
  cases treeOfFile files file with
  | error fault => simp
  | ok t => simp [definitionsIn, eq_comm]

lemma mem_keys_indexOf_iff : key ∈ (indexOf ds).map (·.key) ↔ ∃ e ∈ ds, e.key = key := by
  rw [mem_map]
  constructor
  · rintro ⟨f, hf, rfl⟩
    obtain ⟨e, he, rfl⟩ := mem_indexOf_iff.mp hf
    exact ⟨e, (mem_filter.mp (mem_of_getLast? he)).1, rfl⟩
  · rintro ⟨e, he, rfl⟩
    obtain ⟨last, hlast⟩ := exists_lastDefinition? he
    have hkey := key_of_lastDefinition? hlast
    exact ⟨_, mem_indexOf_iff.mpr ⟨last, hkey.symm ▸ hlast, rfl⟩, hkey⟩

namespace OneFileChanged

variable {files files' : FileTree} {path file : String} {t t' : Tree} {d : Declaration}
  (h : OneFileChanged files files' path file t t') (hencloses : Encloses d.plain d.async t t')

include h

lemma pythonFiles_eq : pythonFiles files' path = pythonFiles files path := by
  unfold pythonFiles
  rw [h.walk]

lemma treeOfFile_eq (hother : other ∈ pythonFiles files path) (hne : other ≠ file) :
    treeOfFile files' other = treeOfFile files other := by
  unfold treeOfFile
  rw [h.others other hother hne]

include hencloses

/-- Each definition was there before, and it needs no more visits than then. -/
lemma exists_old (he' : e' ∈ definitions files' path) : ∃ e ∈ definitions files path,
    e.key = e'.key ∧ e'.tree.visitDepth calling ≤ e.tree.visitDepth calling := by
  obtain ⟨other, hother, u, hu, f', hf', rfl⟩ := mem_definitions_iff.mp he'
  rw [h.pythonFiles_eq] at hother
  by_cases heq : other = file
  · subst heq
    cases h.new.symm.trans hu
    obtain ⟨before, before', after, hold, hnew, hpairs⟩ := hencloses.functions
    rw [mem_functionsOf_iff, hnew] at hf'
    rcases mem_append.mp hf' with hf' | hf'
    -- a function that comes earlier can be around the asynchronous one
    · obtain ⟨f, hf, hname, htree⟩ := exists_mem_of_forall₂ hpairs hf'
      refine ⟨_, mem_definitions_iff.mpr ⟨other, hother, t, h.old, f, ?_, rfl⟩, by rw [h.home, hname], ?_⟩
      · rw [mem_functionsOf_iff, hold]
        exact mem_append_left _ hf
      · rcases htree with htree | htree
        · rw [htree]
        · exact htree.visitDepth_le le_rfl
    · refine ⟨_, mem_definitions_iff.mpr ⟨other, hother, t, h.old, f', ?_, rfl⟩, by rw [h.home], le_rfl⟩
      rw [mem_functionsOf_iff, hold]
      exact mem_append_right _ (mem_cons_of_mem _ hf')
  · rw [h.treeOfFile_eq hother heq] at hu
    exact ⟨_, mem_definitions_iff.mpr ⟨other, hother, u, hu, f', hf', rfl⟩, by rw [h.home], le_rfl⟩

/-- Each key is there as before, but for that of the function. -/
lemma exists_new (he : e ∈ definitions files path) :
    e.key = Path.relative file path files.home ++ "::" ++ d.name.text ∨ ∃ e' ∈ definitions files' path, e'.key = e.key := by
  obtain ⟨other, hother, u, hu, f, hf, rfl⟩ := mem_definitions_iff.mp he
  rw [← h.pythonFiles_eq] at hother
  by_cases heq : other = file
  · subst heq
    cases h.old.symm.trans hu
    obtain ⟨before, before', after, hold, hnew, hpairs⟩ := hencloses.functions
    have hkept : ∀ f' ∈ before' ++ after, ∃ e' ∈ definitions files' path,
        e'.key = Path.relative other path files.home ++ "::" ++ f'.1 := fun f' hf' =>
      ⟨_, mem_definitions_iff.mpr ⟨other, hother, t', h.new, f', mem_functionsOf_iff.mpr (hnew ▸ hf'), rfl⟩, by rw [h.home]⟩
    rw [mem_functionsOf_iff, hold] at hf
    rcases mem_append.mp hf with hf | hf
    · obtain ⟨f', hf', hname, -⟩ := exists_mem_of_forall₂ hpairs.flip hf
      exact .inr (hname ▸ hkept f' (mem_append_left _ hf'))
    · rcases mem_cons.mp hf with rfl | hf
      · exact .inl rfl
      · exact .inr (hkept f (mem_append_right _ hf))
  · rw [← h.treeOfFile_eq (h.pythonFiles_eq ▸ hother) heq] at hu
    exact .inr ⟨_, mem_definitions_iff.mpr ⟨other, hother, u, hu, f, hf, rfl⟩, by rw [h.home]⟩

/-- A project that can be indexed still can be, since no definition is new and none is deeper. -/
lemma indexable (hindexable : Indexable room files path) : Indexable room files' path := by
  refine ⟨fun other hother => ?_, fun e' he' => ?_⟩
  · rw [h.pythonFiles_eq] at hother
    by_cases heq : other = file
    · subst heq
      obtain ⟨s, hs, -⟩ := of_bind h.new
      exact ⟨s, hs⟩
    · rw [h.others other hother heq]
      exact hindexable.readable other hother
  · obtain ⟨e, he, -, hdepth⟩ := h.exists_old hencloses he'
    exact hdepth.trans (hindexable.visitable e he)

end OneFileChanged

/-- **Asynchronous functions.** A function made asynchronous loses its record. The other records stay, in order, but
functions around it lose its sensitive parameters. The index loses its key unless another definition has the same one,
and no other key. -/
theorem async_drops_function (d : Declaration) {t t' : Tree} (h : Encloses d.plain d.async t t') :
    (∃ before before' after, functionRecords t = before ++ .ofTree d.name.text d.plain :: after ∧
      functionRecords t' = before' ++ after ∧ Forall₂ (fun r r' => r = r' ∨ d.LosesNames r r') before before') ∧
    (∀ room, t.visitable measuring room = .ok () → t'.visitable measuring room = .ok ()) ∧
    ∀ files files' path file, OneFileChanged files files' path file t t' → ∀ room index,
      indexProject files path room = .ok index → ∃ index', indexProject files' path room = .ok index' ∧
        ∀ key, (key ∈ index.map (·.key) ↔ key ∈ index'.map (·.key) ∨
            key = Path.relative file path files.home ++ "::" ++ d.name.text) ∧
        (key ∈ index'.map (·.key) ↔ ∃ e ∈ definitions files' path, e.key = key) := by
  refine ⟨?_, fun room hvisit => ?_, fun files files' path file hchanged room index hindex => ?_⟩
  · obtain ⟨before, before', after, hold, hnew, hpairs⟩ := h.functions
    rw [functionRecords_eq, functionRecords_eq, hold, hnew, map_append, map_append, map_cons]
    refine ⟨_, _, _, rfl, rfl, ?_⟩
    rw [forall₂_map_left_iff, forall₂_map_right_iff]
    refine hpairs.imp fun f f' ⟨hname, htree⟩ => ?_
    rw [hname]
    rcases htree with htree | htree
    · rw [htree]
      exact .inl rfl
    · exact .inr ⟨htree.ofTree_eq _, htree.mem_sensitiveNames_iff⟩
  · rw [visitable_eq_ok_iff] at hvisit ⊢
    refine (h.visitDepth_le ?_).trans hvisit
    simp [Declaration.plain, Declaration.async, Tree.visitDepth, Tree.measuring, Tree.unshown]
  · obtain ⟨hindexable, rfl⟩ := indexProject_eq_ok_iff.mp hindex
    refine ⟨_, indexProject_eq_ok_iff.mpr ⟨hchanged.indexable h hindexable, rfl⟩, fun key => ⟨?_, mem_keys_indexOf_iff⟩⟩
    rw [mem_keys_indexOf_iff, mem_keys_indexOf_iff]
    constructor
    · rintro ⟨e, he, rfl⟩
      exact (hchanged.exists_new h he).symm
    · rintro (⟨e', he', rfl⟩ | rfl)
      · obtain ⟨e, he, hkey, -⟩ := hchanged.exists_old h he'
        exact ⟨e, he, hkey⟩
      · obtain ⟨before, before', after, hold, -, -⟩ := h.functions
        refine ⟨_, mem_definitions_iff.mpr ⟨file, hchanged.listed, t, hchanged.old, (d.name.text, d.plain), ?_, rfl⟩, rfl⟩
        rw [mem_functionsOf_iff, hold]
        exact mem_append_right _ mem_cons_self

mutual

def Tree.same : Tree → Tree → Bool
  | .node role tag line endLine parts, .node role' tag' line' endLine' parts' =>
    decide (role = role' ∧ tag = tag' ∧ line = line' ∧ endLine = endLine') && sameAll parts parts'

def Tree.sameAll : List Tree → List Tree → Bool
  | [], [] => true
  | t :: ts, u :: us => t.same u && sameAll ts us
  | _, _ => false

end

mutual

lemma Tree.eq_of_same : ∀ {t u : Tree}, t.same u → t = u
  | .node _ _ _ _ _, .node _ _ _ _ _, h => by
    rw [same, Bool.and_eq_true, decide_eq_true_iff] at h
    obtain ⟨⟨rfl, rfl, rfl, rfl⟩, hparts⟩ := h
    rw [eq_of_sameAll hparts]

lemma Tree.eq_of_sameAll : ∀ {ts us : List Tree}, sameAll ts us → ts = us
  | [], [], _ => rfl
  | _ :: _, _ :: _, h => by
    rw [sameAll, Bool.and_eq_true] at h
    rw [eq_of_same h.1, eq_of_sameAll h.2]

end

lemma treeOfFile_eq_of_same (h : (treeOfFile files file).toOption.any (·.same t)) : treeOfFile files file = .ok t := by
  obtain ⟨u, hu, hsame⟩ := (Option.any_eq_true _ _).mp h
  rw [toOption_eq_some_iff.mp hu, eq_of_same hsame]

def idle : Declaration where
  role := .body
  name := ⟨"f", by decide⟩
  line := 1
  endLine := 1
  parts := [.node .parameters .parameterList 1 1 [], .node .body .exprStmt 1 1 [.node .part .constant 1 1 []]]

def onlyStatement (t : Tree) : Tree := .node .part .module 1 1 ([] ++ t :: [])

def onlyFile (text : String) : FileTree := FileTree.empty.put ["p", "a.py"] (.file (.text text))

theorem async_drops_idle : Encloses idle.plain idle.async (onlyStatement idle.plain) (onlyStatement idle.async) ∧
    (functionRecords (onlyStatement idle.plain)).length = (functionRecords (onlyStatement idle.async)).length + 1 ∧
    ∃ index index', indexProject (onlyFile "def f(): 0\n") "p" = .ok index ∧
      indexProject (onlyFile "async def f(): 0\n") "p" = .ok index' ∧ "a.py::f" ∈ index.map (·.key) ∧
      "a.py::f" ∉ index'.map (·.key) := by
  have h : Encloses idle.plain idle.async (onlyStatement idle.plain) (onlyStatement idle.async) := .parent _ _ _ _ [] []
  obtain ⟨⟨before, before', after, hold, hnew, hpairs⟩, -, hproject⟩ := async_drops_function idle h
  have hfiles : pythonFiles (onlyFile "def f(): 0\n") "p" = ["p/a.py"] := by decide +kernel
  have hchanged : OneFileChanged (onlyFile "def f(): 0\n") (onlyFile "async def f(): 0\n") "p" "p/a.py"
      (onlyStatement idle.plain) (onlyStatement idle.async) := by
    refine ⟨rfl, by decide +kernel, fun other hother hne => ?_, hfiles ▸ mem_singleton_self _,
      treeOfFile_eq_of_same (by decide +kernel), treeOfFile_eq_of_same (by decide +kernel)⟩
    rw [hfiles, mem_singleton] at hother
    exact absurd hother hne
  obtain ⟨index, hindex⟩ := isOk_iff.mp
    (show (indexProject (onlyFile "def f(): 0\n") "p").isOk = true by decide +kernel)
  obtain ⟨index', hindex', hkeys⟩ := hproject _ _ _ _ hchanged _ index hindex
  have hkey : Path.relative "p/a.py" "p" (onlyFile "def f(): 0\n").home ++ "::" ++ idle.name.text = "a.py::f" := by
    decide +kernel
  refine ⟨h, ?_, index, index', hindex, hindex', (hkeys _).1.mpr (.inr hkey.symm), fun hmem => ?_⟩
  · rw [hold, hnew, length_append, length_append, length_cons, hpairs.length_eq]
    omega
  · exact absurd ((hkeys _).2.mp hmem) (by decide +kernel)

end CodeAudit.Python
