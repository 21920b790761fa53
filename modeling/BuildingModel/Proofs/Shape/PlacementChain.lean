import BuildingModel.Shape.Placement
import BuildingModel.Proofs.Exchange.Grammar
import Mathlib

/-!
# Chains of placements

A placement lies in the placement that its first parameter links to, and so on up to one that lies in none.
`PlacementChain` is that chain. The frames along it are collected from the inside outwards and multiplied from the
outside inwards. This gives what the recursion gives by which the place of a placement is the place of the placement
around it times its own frame (`localPlacement_eq_placementWithin`). So a place in the world is found exactly if the
chain has an end within the limit and every placement of it can be read. A chain that is too long or runs in a
circle has no place in the world.
-/

namespace BuildingModel

open Exchange

namespace LinkedModel

/-- The frame of a placement relative to the placement around it. -/
inductive RelativeFrame (m : LinkedModel) (e : LinkedEntity) : Mat4 Float → Prop where
  | absent (h : m.follow? e 1 = none) : RelativeFrame m e Mat4.identity
  | space {axis r} (h : m.follow? e 1 = some axis) (hkind : axis.kind = .axis2Placement3D)
      (hr : m.frame3 axis = .ok r) : RelativeFrame m e r
  | plane {axis origin x} (h : m.follow? e 1 = some axis) (hkind : axis.kind = .axis2Placement2D)
      (hr : m.frame2 axis = .ok (origin, x)) :
      RelativeFrame m e (frame Vec3.unitZ x ⟨origin.x, origin.y, 0⟩)
  | other {axis} (h : m.follow? e 1 = some axis) (hspace : axis.kind ≠ .axis2Placement3D)
      (hplane : axis.kind ≠ .axis2Placement2D) : RelativeFrame m e Mat4.identity

/-- A placement whose own frame can be read. -/
def ReadablePlacement (m : LinkedModel) (e : LinkedEntity) : Prop :=
  e.kind = .localPlacement ∧ ∃ r, m.RelativeFrame e r

/-- A placement lies in the one that its first parameter links to. -/
def PlacedIn (m : LinkedModel) (e q : LinkedEntity) : Prop := m.follow? e 0 = some q

/-- A placement and those around it, up to one that lies in none. -/
inductive PlacementChain (m : LinkedModel) : LinkedEntity → List LinkedEntity → Prop where
  | outermost {e} (h : m.follow? e 0 = none) : PlacementChain m e [e]
  | inner {e q es} (h : m.PlacedIn e q) (hq : PlacementChain m q es) : PlacementChain m e (e :: es)

variable {m : LinkedModel} {e p q : LinkedEntity} {es : List LinkedEntity} {world r : Mat4 Float}
  {start : EntityId} {left : Nat}

/-! ## Relative frames -/

/-- A relative placement is read exactly if it gives a frame. -/
lemma relativePlacement_eq_ok_iff : m.relativePlacement e = .ok r ↔ m.RelativeFrame e r := by
  unfold relativePlacement
  constructor
  · intro h
    split at h
    · rename_i haxis
      cases h
      exact .absent haxis
    · rename_i axis haxis
      split at h
      · rename_i hkind
        exact .space haxis hkind h
      · rename_i hkind
        obtain ⟨⟨origin, x⟩, hframe, hr⟩ := bind_eq_ok_iff.mp h
        cases hr
        exact .plane haxis hkind hframe
      · rename_i hspace hplane
        cases h
        exact .other haxis hspace hplane
  · intro h
    cases h with
    | absent haxis => rw [haxis]
    | space haxis hkind hr =>
      rw [haxis]
      simp only [hkind, hr]
    | plane haxis hkind hr =>
      rw [haxis]
      simp only [hkind, hr]
      rfl
    | @other axis haxis hspace hplane =>
      rw [haxis]
      simp only

/-! ## The loop along the chain -/

/-- The place in the world of a placement, by at most `left` placements of its chain: the place of the placement
around it times its own frame. -/
def placementWithin (m : LinkedModel) (start : EntityId) :
    (left : Nat) → LinkedEntity → Except ShapeError (Mat4 Float)
  | 0, _ => .error (.geometry s!"#{start}: placement chain deeper than {placementLimit}")
  | left + 1, e => do
    e.expectKind .localPlacement
    let relative ← m.relativePlacement e
    let around ← match m.follow? e 0 with
      | some parent => m.placementWithin start left parent
      | none => pure Mat4.identity
    return around * relative

/-- Multiply frames from the last to the first, after a place in the world. -/
def foldFrames (world : Mat4 Float) (chain : Array (Mat4 Float)) : Mat4 Float :=
  chain.reverse.foldl (fun world frame => world * frame) world

/-- The frame that is collected last is multiplied first. -/
lemma foldFrames_push (chain : Array (Mat4 Float)) (frame : Mat4 Float) :
    foldFrames world (chain.push frame) = foldFrames (world * frame) chain := by
  simp [foldFrames]

/-- At the end of the chain all frames are collected. -/
lemma collectFrames_none (chain : Array (Mat4 Float)) : m.collectFrames start chain none = .ok chain := by
  rw [collectFrames]

/-- Collecting the frames from a placement on and multiplying all of them is the same as multiplying the frames that
were there before, after the place of the placement in the world. -/
lemma map_collectFrames (chain : Array (Mat4 Float)) (hleft : chain.size + left = placementLimit) :
    (m.collectFrames start chain (some e)).map (foldFrames Mat4.identity) =
      (m.placementWithin start left e).map (foldFrames · chain) := by
  -- The induction is on what is left up to the limit; the frames collected so far change along the chain.
  induction left generalizing chain e with
  | zero =>
    rw [collectFrames, dif_pos (by omega)]
    rfl
  | succ left ih =>
    rw [collectFrames, dif_neg (by omega), placementWithin]
    cases e.expectKind .localPlacement with
    | error problem => rfl
    | ok _ =>
      cases m.relativePlacement e with
      | error problem => rfl
      | ok relative =>
        cases hparent : m.follow? e 0 with
        | none =>
          change (m.collectFrames start (chain.push relative) none).map _ =
            Except.ok (foldFrames (Mat4.identity * relative) chain)
          rw [collectFrames_none, Except.map, foldFrames_push]
        | some parent =>
          have hrest := ih (e := parent) (chain.push relative) (by rw [Array.size_push]; omega)
          simp only [foldFrames_push] at hrest
          refine hrest.trans ?_
          change _ = Except.map _ (m.placementWithin start left parent >>= fun around => pure (around * relative))
          cases m.placementWithin start left parent with
          | error problem => rfl
          | ok around => rfl

/-- The loop along the chain gives what the recursion gives. -/
lemma localPlacement_eq_placementWithin (m : LinkedModel) (e : LinkedEntity) :
    m.localPlacement e = m.placementWithin e.id placementLimit e := by
  have hloop : (m.collectFrames e.id #[] (some e)).map (foldFrames Mat4.identity) = _ :=
    map_collectFrames #[] (Nat.zero_add placementLimit)
  rw [localPlacement]
  refine Eq.trans ?_ (hloop.trans ?_)
  · cases m.collectFrames e.id #[] (some e) with
    | error problem => rfl
    | ok chain => rfl
  · cases m.placementWithin e.id placementLimit e with
    | error problem => rfl
    | ok world => rfl

/-! ## One link of the chain -/

/-- A kind is expected exactly. -/
lemma expectKind_eq_ok_iff {kind : Kind} {u : Unit} : e.expectKind kind = .ok u ↔ e.kind = kind := by
  rw [LinkedEntity.expectKind]
  split
  · rename_i h
    exact iff_of_true rfl h
  · rename_i h
    exact iff_of_false (by simp) h

/-- What a placement that has a place in the world consists of. -/
lemma placementWithin_succ_eq_ok_iff :
    m.placementWithin start (left + 1) e = .ok world ↔
      e.kind = .localPlacement ∧ ∃ r, m.RelativeFrame e r ∧
        ((m.follow? e 0 = none ∧ world = Mat4.identity * r) ∨
          ∃ q around, m.PlacedIn e q ∧ m.placementWithin start left q = .ok around ∧ world = around * r) := by
  rw [placementWithin, bind_eq_ok_iff]
  simp only [expectKind_eq_ok_iff, exists_const]
  refine and_congr_right fun _ => ?_
  rw [bind_eq_ok_iff]
  refine exists_congr fun r => and_congr relativePlacement_eq_ok_iff ?_
  unfold PlacedIn
  cases hparent : m.follow? e 0 with
  | none =>
    constructor
    · intro hworld
      cases hworld
      exact .inl ⟨rfl, rfl⟩
    · rintro (⟨-, rfl⟩ | ⟨q, around, hq, -⟩)
      · rfl
      · cases hq
  | some q =>
    constructor
    · intro h
      obtain ⟨around, haround, hworld⟩ := bind_eq_ok_iff.mp h
      cases hworld
      exact .inr ⟨q, around, rfl, haround, rfl⟩
    · rintro (⟨hnone, -⟩ | ⟨q', around, hq, haround, rfl⟩)
      · cases hnone
      · cases hq
        exact bind_eq_ok_iff.mpr ⟨around, haround, rfl⟩

/-- A longer limit, and another start to be named in errors, change nothing for a place that is found. -/
lemma placementWithin_mono (h : m.placementWithin start left e = .ok world) (start' : EntityId) {left' : Nat}
    (hle : left ≤ left') : m.placementWithin start' left' e = .ok world := by
  induction left generalizing e world left' with
  | zero => cases h
  | succ left ih =>
    obtain ⟨left', rfl⟩ := Nat.exists_eq_add_of_le' (Nat.le_of_add_left_le hle : 1 ≤ left')
    rw [placementWithin_succ_eq_ok_iff] at h ⊢
    obtain ⟨hkind, r, hr, hworld⟩ := h
    refine ⟨hkind, r, hr, hworld.imp_right ?_⟩
    rintro ⟨q, around, hq, haround, rfl⟩
    exact ⟨q, around, hq, ih haround (Nat.le_of_succ_le_succ hle), rfl⟩

/-! ## Whole chains -/

/-- A chain goes on from where its first placement is placed in. -/
lemma PlacementChain.of_placedIn (hchain : m.PlacementChain e es) (hq : m.PlacedIn e q) :
    ∃ es', es = e :: es' ∧ m.PlacementChain q es' := by
  cases hchain with
  | outermost h =>
    rw [PlacedIn, h] at hq
    cases hq
  | @inner _ q' es' hq' hchain =>
    rw [PlacedIn, hq] at hq'
    cases hq'
    exact ⟨es', rfl, hchain⟩

/-- There is one chain from a placement. -/
lemma PlacementChain.unique {es' : List LinkedEntity} (h : m.PlacementChain e es) (h' : m.PlacementChain e es') :
    es = es' := by
  induction h generalizing es' with
  | outermost hnone =>
    cases h' with
    | outermost _ => rfl
    | inner hq _ =>
      rw [PlacedIn, hnone] at hq
      cases hq
  | @inner e q es hq hchain ih =>
    obtain ⟨es'', rfl, hrest⟩ := h'.of_placedIn hq
    rw [ih hrest]

/-- A place in the world is found exactly along a chain that ends within the limit and can be read. -/
lemma exists_placementWithin_iff :
    (∃ world, m.placementWithin start left e = .ok world) ↔
      ∃ es, m.PlacementChain e es ∧ es.length ≤ left ∧ ∀ e' ∈ es, m.ReadablePlacement e' := by
  induction left generalizing e with
  | zero =>
    constructor
    · rintro ⟨world, h⟩
      cases h
    · rintro ⟨es, hchain, hlength, -⟩
      cases hchain with
      | outermost _ | inner _ _ => cases hlength
  | succ left ih =>
    constructor
    · rintro ⟨world, h⟩
      obtain ⟨hkind, r, hr, ⟨hnone, -⟩ | ⟨q, around, hq, haround, -⟩⟩ := placementWithin_succ_eq_ok_iff.mp h
      · refine ⟨[e], .outermost hnone, Nat.le_add_left _ _, ?_⟩
        exact List.forall_mem_singleton.mpr ⟨hkind, r, hr⟩
      · obtain ⟨es, hchain, hlength, hreadable⟩ := ih.mp ⟨around, haround⟩
        refine ⟨e :: es, .inner hq hchain, Nat.succ_le_succ hlength, ?_⟩
        exact List.forall_mem_cons.mpr ⟨⟨hkind, r, hr⟩, hreadable⟩
    · rintro ⟨es, hchain, hlength, hreadable⟩
      cases hchain with
      | outermost hnone =>
        obtain ⟨hkind, r, hr⟩ := hreadable e (List.mem_singleton_self e)
        exact ⟨_, placementWithin_succ_eq_ok_iff.mpr ⟨hkind, r, hr, .inl ⟨hnone, rfl⟩⟩⟩
      | @inner _ q es hq hchain =>
        obtain ⟨⟨hkind, r, hr⟩, hrest⟩ := List.forall_mem_cons.mp hreadable
        obtain ⟨around, haround⟩ := ih.mpr ⟨es, hchain, Nat.le_of_succ_le_succ hlength, hrest⟩
        exact ⟨_, placementWithin_succ_eq_ok_iff.mpr ⟨hkind, r, hr, .inr ⟨q, around, hq, haround, rfl⟩⟩⟩

/-- The chain of a placement further out is shorter. -/
lemma PlacementChain.of_transGen (hchain : m.PlacementChain e es) (hq : Relation.TransGen m.PlacedIn e q) :
    ∃ es', m.PlacementChain q es' ∧ es'.length < es.length := by
  induction hq with
  | single hq =>
    obtain ⟨es', rfl, hchain'⟩ := hchain.of_placedIn hq
    exact ⟨es', hchain', Nat.lt_succ_self _⟩
  | tail _ hq ih =>
    obtain ⟨es₁, hchain₁, hlength₁⟩ := ih
    obtain ⟨es₂, rfl, hchain₂⟩ := hchain₁.of_placedIn hq
    exact ⟨es₂, hchain₂, Nat.lt_of_succ_lt hlength₁⟩

/-- A chain that ends never runs in a circle. -/
lemma PlacementChain.not_cyclic (hchain : m.PlacementChain p es) (hreach : Relation.ReflTransGen m.PlacedIn p e) :
    ¬ Relation.TransGen m.PlacedIn e e := by
  intro hcycle
  have hends : ∃ es', m.PlacementChain e es' := by
    rcases Relation.reflTransGen_iff_eq_or_transGen.mp hreach with rfl | hreach
    · exact ⟨es, hchain⟩
    · obtain ⟨es', hchain', -⟩ := hchain.of_transGen hreach
      exact ⟨es', hchain'⟩
  obtain ⟨es', hchain'⟩ := hends
  obtain ⟨es'', hchain'', hlength⟩ := hchain'.of_transGen hcycle
  rw [hchain''.unique hchain'] at hlength
  exact Nat.lt_irrefl _ hlength

/-- Where no place in the world is found there is an error. -/
lemma exists_error_of_not_ok {x : Except ShapeError (Mat4 Float)} (h : ¬ ∃ world, x = .ok world) :
    ∃ problem, x = .error problem := by
  cases x with
  | error problem => exact ⟨problem, rfl⟩
  | ok world => exact absurd ⟨world, rfl⟩ h

/-- Placement chains compose recursively. A place in the world is that of the placement around times the own
frame; it is found along every chain of at most a hundred placements that can be read, and along no chain that is
longer or runs in a circle. -/
theorem localPlacement_composes (m : LinkedModel) (p : LinkedEntity) :
    (∀ world, m.localPlacement p = .ok world →
      ∃ r, m.RelativeFrame p r ∧
        ((m.follow? p 0 = none ∧ world = Mat4.identity * r) ∨
          ∃ q around, m.PlacedIn p q ∧ m.localPlacement q = .ok around ∧ world = around * r)) ∧
    (∀ es, m.PlacementChain p es → es.length ≤ 100 → (∀ e ∈ es, m.ReadablePlacement e) →
      ∃ world, m.localPlacement p = .ok world) ∧
    (∀ es, m.PlacementChain p es → 100 < es.length → ∃ problem, m.localPlacement p = .error problem) ∧
    (∀ e, Relation.ReflTransGen m.PlacedIn p e → Relation.TransGen m.PlacedIn e e →
      ∃ problem, m.localPlacement p = .error problem) := by
  simp only [localPlacement_eq_placementWithin]
  have hfound : (∃ world, m.placementWithin p.id placementLimit p = .ok world) ↔ _ := exists_placementWithin_iff
  refine ⟨?_, ?_, ?_, ?_⟩
  · intro world h
    obtain ⟨-, r, hr, hworld⟩ := placementWithin_succ_eq_ok_iff.mp h
    refine ⟨r, hr, hworld.imp_right ?_⟩
    rintro ⟨q, around, hq, haround, rfl⟩
    exact ⟨q, around, hq, placementWithin_mono haround q.id (Nat.le_succ _), rfl⟩
  · intro es hchain hlength hreadable
    exact hfound.mpr ⟨es, hchain, hlength, hreadable⟩
  · intro es hchain hlength
    refine exists_error_of_not_ok fun h => ?_
    obtain ⟨es', hchain', hlength', -⟩ := hfound.mp h
    rw [hchain'.unique hchain] at hlength'
    exact Nat.not_lt_of_le hlength' hlength
  · intro e hreach hcycle
    refine exists_error_of_not_ok fun h => ?_
    obtain ⟨es, hchain, -⟩ := hfound.mp h
    exact hchain.not_cyclic hreach hcycle

/-- A placement in the one below it; the lowest lies in none. -/
def storey : Nat → LinkedEntity
  | 0 => ⟨1, .localPlacement, [.omitted, .omitted]⟩
  | n + 1 => ⟨UInt64.ofNat (n + 2), .localPlacement, [.link n, .omitted]⟩

/-- A placement in itself. -/
def ringPlacement : LinkedEntity := ⟨200, .localPlacement, [.link 101, .omitted]⟩

/-- A hundred and one storeys, and a placement in itself. -/
def tower : LinkedModel := { entities := ((List.range 101).map storey ++ [ringPlacement]).toArray }

/-- Each storey of the tower is placed in the one below. -/
lemma placedIn_storey {n : Nat} (hn : n < 101) : tower.PlacedIn (storey (n + 1)) (storey n) := by
  change tower.entities[n]? = some (storey n)
  simp [tower, List.getElem?_append, hn]

/-- Each of them is where that one is. -/
lemma relativeFrame_storey (n : Nat) : tower.RelativeFrame (storey n) Mat4.identity := by
  cases n with
  | zero => exact .absent rfl
  | succ n => exact .absent rfl

/-- The chain of a storey goes down to the lowest. -/
lemma exists_chain_storey {n : Nat} (hn : n < 101) :
    ∃ es, tower.PlacementChain (storey n) es ∧ es.length = n + 1 ∧ ∀ e ∈ es, tower.ReadablePlacement e := by
  induction n with
  | zero =>
    refine ⟨[storey 0], .outermost rfl, rfl, ?_⟩
    exact List.forall_mem_singleton.mpr ⟨rfl, _, relativeFrame_storey 0⟩
  | succ n ih =>
    obtain ⟨es, hchain, hlength, hreadable⟩ := ih (Nat.lt_of_succ_lt hn)
    refine ⟨storey (n + 1) :: es, .inner (placedIn_storey (Nat.lt_of_succ_lt hn)) hchain, ?_, ?_⟩
    · rw [List.length_cons, hlength]
    · exact List.forall_mem_cons.mpr ⟨⟨rfl, _, relativeFrame_storey (n + 1)⟩, hreadable⟩

/-- The hundredth storey of the tower is placed. The one above it is too high, and the ring is placed nowhere. -/
theorem localPlacement_composes_tower :
    (∃ world, tower.localPlacement (storey 99) = .ok world ∧
      ∃ r q around, tower.RelativeFrame (storey 99) r ∧ tower.PlacedIn (storey 99) q ∧
        tower.localPlacement q = .ok around ∧ world = around * r) ∧
    (∃ problem, tower.localPlacement (storey 100) = .error problem) ∧
    (∃ problem, tower.localPlacement ringPlacement = .error problem) := by
  refine ⟨?_, ?_, ?_⟩
  · obtain ⟨hrecursive, hsucceeds, -⟩ := localPlacement_composes tower (storey 99)
    obtain ⟨es, hchain, hlength, hreadable⟩ := exists_chain_storey (n := 99) (by decide)
    obtain ⟨world, hworld⟩ := hsucceeds es hchain hlength.le hreadable
    obtain ⟨r, hr, ⟨hnone, -⟩ | ⟨q, around, hq, haround, hproduct⟩⟩ := hrecursive world hworld
    · rw [placedIn_storey (by decide : 98 < 101)] at hnone
      cases hnone
    · exact ⟨world, hworld, r, q, around, hr, hq, haround, hproduct⟩
  · obtain ⟨es, hchain, hlength, -⟩ := exists_chain_storey (n := 100) (by decide)
    exact (localPlacement_composes tower (storey 100)).2.2.1 es hchain (by rw [hlength]; decide)
  · have hring : tower.PlacedIn ringPlacement ringPlacement := by
      change tower.entities[101]? = some ringPlacement
      simp [tower]
    exact (localPlacement_composes tower ringPlacement).2.2.2 ringPlacement .refl (.single hring)

end LinkedModel

end BuildingModel
