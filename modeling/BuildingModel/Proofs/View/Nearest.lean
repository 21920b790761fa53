import BuildingModel.Proofs.Number.Comparison
import BuildingModel.Proofs.View.Picking

/-!
# The nearest hit

Picking keeps the nearest hit so far. It passes over objects whose boxes the ray misses, or enters behind that
hit, and it takes another hit only if that is strictly nearer. If the boxes are where the ray meets what is in
them (`Look.BoxesSound`), nothing is lost by that: what is picked is the first of all hits by distance, then by
the order of the scene, then by the order of the triangles (`Look.pickRay?_isFirst`).
-/

namespace BuildingModel

namespace PickHit

/-- The hit is on an object before `key`, or on a triangle of `key` before `i`. -/
def Precedes {α : Type} (hit : PickHit α) (key i : Nat) : Prop :=
  hit.object < key ∨ hit.object = key ∧ hit.triangle < i

/-- A hit comes before another if it is nearer. At one distance the order of the objects in the scene counts,
and within an object the order of its triangles. -/
def Before (a b : PickHit Float32) : Prop :=
  a.distance < b.distance ∨ a.distance = b.distance ∧ a.Precedes b.object b.triangle

/-- The hit is one of `S`, and comes before all others. -/
def IsFirst (S : PickHit Float32 → Prop) (hit : PickHit Float32) : Prop :=
  S hit ∧ ∀ other, S other → other = hit ∨ hit.Before other

/-- The nearest hit so far is one of `S` and comes before all others of them. There is none if `S` is empty. -/
def Nearest (S : PickHit Float32 → Prop) (best : Option (PickHit Float32)) : Prop :=
  (∀ b ∈ best, S b) ∧ ∀ hit, S hit → ∃ b ∈ best, b = hit ∨ b.Before hit

variable {S T : PickHit Float32 → Prop} {best : Option (PickHit Float32)} {a b c hit : PickHit Float32}

/-- Before the first triangle of an object come the objects before it. -/
lemma precedes_zero_iff {α : Type} {hit : PickHit α} {key : Nat} : hit.Precedes key 0 ↔ hit.object < key := by
  simp [Precedes]

/-- The order of hits is transitive. -/
lemma Before.trans (hab : a.Before b) (hbc : b.Before c) : a.Before c := by
  rcases hab with hab | ⟨hab, hlex⟩
  · rcases hbc with hbc | ⟨hbc, -⟩
    · exact .inl (Single.lt_trans hab hbc)
    · exact .inl (hbc ▸ hab)
  · rcases hbc with hbc | ⟨hbc, hlex'⟩
    · exact .inl (hab ▸ hbc)
    · refine .inr ⟨hab.trans hbc, ?_⟩
      unfold Precedes at *
      grind

/-- No hit comes before itself. -/
lemma Before.irrefl (a : PickHit Float32) : ¬ a.Before a := by
  rintro (h | ⟨-, h⟩)
  · exact Single.lt_irrefl _ h
  · unfold Precedes at h
    grind

namespace Nearest

/-- Hits that the nearest one comes before change nothing. -/
lemma skip (hbest : Nearest S best) (hsub : ∀ hit, S hit → T hit)
    (hnew : ∀ hit, T hit → S hit ∨ ∃ b ∈ best, b.Before hit) : Nearest T best := by
  refine ⟨fun b hb => hsub b (hbest.1 b hb), ?_⟩
  intro hit hhit
  rcases hnew hit hhit with hold | ⟨b, hb, hbefore⟩
  · exact hbest.2 hit hold
  · exact ⟨b, hb, .inr hbefore⟩

/-- A hit that comes before the nearest one takes its place. -/
lemma take (hbest : Nearest S best) (hhit : T hit) (hnew : ∀ other, T other → S other ∨ other = hit)
    (hnearer : ∀ b ∈ best, hit.Before b) : Nearest T (some hit) := by
  refine ⟨?_, ?_⟩
  · rintro b ⟨⟩
    exact hhit
  · intro other hother
    refine ⟨hit, rfl, ?_⟩
    rcases hnew other hother with hold | rfl
    · obtain ⟨b, hb, rfl | hbefore⟩ := hbest.2 other hold
      · exact .inr (hnearer b hb)
      · exact .inr ((hnearer b hb).trans hbefore)
    · exact .inl rfl

/-- The nearest hit depends on which hits there are, and on nothing else. -/
lemma congr (hbest : Nearest S best) (hiff : ∀ hit, S hit ↔ T hit) : Nearest T best :=
  hbest.skip (fun hit => (hiff hit).mp) fun hit hhit => .inl ((hiff hit).mpr hhit)

/-- The nearest hit is the first one. -/
lemma eq_some_iff (hbest : Nearest S best) : best = some hit ↔ IsFirst S hit := by
  constructor
  · rintro rfl
    refine ⟨hbest.1 hit rfl, ?_⟩
    intro other hother
    obtain ⟨b, ⟨⟩, rfl | hbefore⟩ := hbest.2 other hother
    · exact .inl rfl
    · exact .inr hbefore
  · rintro ⟨hhit, hfirst⟩
    obtain ⟨b, hb, rfl | hbefore⟩ := hbest.2 hit hhit
    · exact hb
    · rcases hfirst b (hbest.1 b hb) with rfl | hbefore'
      · exact hb
      · exact absurd (hbefore.trans hbefore') (Before.irrefl b)

/-- There is none exactly if there are no hits. -/
lemma eq_none_iff (hbest : Nearest S best) : best = none ↔ ¬ ∃ hit, S hit := by
  constructor
  · rintro rfl ⟨hit, hhit⟩
    obtain ⟨b, ⟨⟩, -⟩ := hbest.2 hit hhit
  · intro hnone
    rw [Option.eq_none_iff_forall_not_mem]
    exact fun b hb => hnone ⟨b, hbest.1 b hb⟩

end Nearest

end PickHit

/-- Whatever a ray meets is at a positive distance. -/
lemma Ray.pos_of_meet? {r : Ray Float32} {triangle : Vec3 Float32 × Vec3 Float32 × Vec3 Float32} {t : Float32}
    (hmeet : r.meet? triangle = some t) : 0 < t := by
  have htolerance : (0 : Float32) < Ray.tolerance := by decide +kernel
  suffices h : Ray.tolerance < t from Single.lt_trans htolerance h
  simp only [Ray.meet?] at hmeet
  split_ifs at hmeet with _ _ _ hfar
  cases hmeet
  exact hfar

namespace Look

open PickHit

variable {l : Look Float32} {s : Scene Float32} {ray : Ray Float32} {best : Option (PickHit Float32)}
  {hit : PickHit Float32} {key i : Nat} {o : SceneObject Float32} {level : DetailLevel}
  {g : Geometry Float32} {inverse : Mat4 Float32}

/-- The hit is on something that is drawn. -/
def Meets (l : Look Float32) (s : Scene Float32) (ray : Ray Float32) (hit : PickHit Float32) : Prop :=
  ∃ o level g, l.Hits s ray hit o level g

/-- The hits on objects before `key`, and those on triangles of `key` before `i`. -/
def MeetsBefore (l : Look Float32) (s : Scene Float32) (ray : Ray Float32) (key i : Nat)
    (hit : PickHit Float32) : Prop :=
  l.Meets s ray hit ∧ hit.Precedes key i

/-- Where the ray meets a triangle of an object that can be drawn, it has entered the box of the object by then,
and it does not miss the box of the geometry. -/
def BoxesSound (l : Look Float32) (s : Scene Float32) (ray : Ray Float32) : Prop :=
  ∀ o ∈ s.objects, l.shows o = true → ∀ inverse ∈ o.inverse, ∀ active ∈ s.active? o (l.requestedLevel o),
    active.2.primitive = .triangles → ∀ i < active.2.triangleCount,
      ∀ t ∈ (ray.within inverse).meet? (active.2.corners i),
        (∃ entry ∈ o.worldBounds.rayEntry? ray.origin ray.direction, entry ≤ t) ∧
          (active.2.bounds.rayEntry? (ray.within inverse).origin (ray.within inverse).direction).isSome = true

/-- A hit lies before the eye. -/
lemma Meets.pos (hmeets : l.Meets s ray hit) : 0 < hit.distance := by
  obtain ⟨o, level, g, hhits⟩ := hmeets
  obtain ⟨inverse, -, hmeet⟩ := hhits.meets
  exact Ray.pos_of_meet? hmeet

/-- With one more triangle there are no fewer hits. -/
lemma MeetsBefore.succ (hhit : l.MeetsBefore s ray key i hit) : l.MeetsBefore s ray key (i + 1) hit := by
  obtain ⟨hmeets, hlt | ⟨hkey, hlt⟩⟩ := hhit
  · exact ⟨hmeets, .inl hlt⟩
  · exact ⟨hmeets, .inr ⟨hkey, Nat.lt_succ_of_lt hlt⟩⟩

/-- A hit is on the last triangle, or before it. -/
lemma MeetsBefore.cases_succ (hhit : l.MeetsBefore s ray key (i + 1) hit) :
    l.MeetsBefore s ray key i hit ∨ hit.object = key ∧ hit.triangle = i := by
  obtain ⟨hmeets, hlt | ⟨hkey, hlt⟩⟩ := hhit
  · exact .inl ⟨hmeets, .inl hlt⟩
  · rcases Nat.lt_succ_iff_lt_or_eq.mp hlt with hlt | heq
    · exact .inl ⟨hmeets, .inr ⟨hkey, hlt⟩⟩
    · exact .inr ⟨hkey, heq⟩

/-- What comes before the next object is on an object before this one or on this one. -/
lemma meetsBefore_next_iff : l.MeetsBefore s ray (key + 1) 0 hit ↔
    l.Meets s ray hit ∧ (hit.object < key ∨ hit.object = key) := by
  rw [MeetsBefore, precedes_zero_iff, Nat.lt_succ_iff_lt_or_eq]

section Object

variable (ho : s.object? key = some o) (hfate : l.fate s o = .visible level g)
  (hinverse : o.inverse = some inverse)
include ho hfate hinverse

/-- A hit on a drawn object is where the ray meets its triangle, and all else about it follows. -/
lemma Meets.eq_of_object (hmeets : l.Meets s ray hit) (hkey : hit.object = key) :
    g.primitive = .triangles ∧ hit.triangle < g.triangleCount ∧
      (ray.within inverse).meet? (g.corners hit.triangle) = some hit.distance ∧
      l.filter.clipping.clipsPoint (ray.point hit.distance) = false ∧
      hit = ⟨key, o.entity, hit.triangle, ray.point hit.distance, hit.distance⟩ := by
  obtain ⟨o', level', g', hhits⟩ := hmeets
  obtain ⟨inverse', hinverse', hmeet⟩ := hhits.meets
  obtain rfl : o = o' := Option.some.inj (ho.symm.trans (hkey ▸ hhits.object))
  obtain ⟨rfl, rfl⟩ : level = level' ∧ g = g' := by simpa using hfate.symm.trans hhits.fate
  obtain rfl : inverse = inverse' := Option.some.inj (hinverse.symm.trans hinverse')
  refine ⟨hhits.primitive, hhits.triangle, hmeet, hhits.point ▸ hhits.kept, ?_⟩
  rw [← hkey, ← hhits.entity, ← hhits.point]

/-- One triangle adds at most one hit. It is taken if it is strictly nearer. -/
lemma nearest_pickTriangle (hprimitive : g.primitive = .triangles) (hi : i < g.triangleCount)
    (hbest : Nearest (l.MeetsBefore s ray key i) best) :
    Nearest (l.MeetsBefore s ray key (i + 1)) (l.pickTriangle ray (ray.within inverse) g (o, key) best i) := by
  have hnew : ∀ hit, l.MeetsBefore s ray key (i + 1) hit → l.MeetsBefore s ray key i hit ∨
      (ray.within inverse).meet? (g.corners i) = some hit.distance ∧
      l.filter.clipping.clipsPoint (ray.point hit.distance) = false ∧
      hit = ⟨key, o.entity, i, ray.point hit.distance, hit.distance⟩ := by
    intro hit hhit
    rcases hhit.cases_succ with hold | ⟨hkey, rfl⟩
    · exact .inl hold
    · obtain ⟨-, -, hmeet, hkept, heq⟩ := hhit.1.eq_of_object ho hfate hinverse hkey
      exact .inr ⟨hmeet, hkept, heq⟩
  cases hmeet : (ray.within inverse).meet? (g.corners i) with
  | none =>
    simp only [pickTriangle, hmeet]
    apply hbest.skip fun hit => MeetsBefore.succ
    intro hit hhit
    rcases hnew hit hhit with hold | ⟨hmeet', -⟩
    · exact .inl hold
    · simp [hmeet] at hmeet'
  | some t =>
    simp only [pickTriangle, hmeet]
    split
    · rename_i hskip
      apply hbest.skip fun hit => MeetsBefore.succ
      intro hit hhit
      rcases hnew hit hhit with hold | ⟨hmeet', hkept, heq⟩
      · exact .inl hold
      · obtain rfl : t = hit.distance := Option.some.inj (hmeet.symm.trans hmeet')
        rw [hkept, Bool.or_false, Option.any_eq_true] at hskip
        obtain ⟨b, hb, hnearer⟩ := hskip
        rw [Bool.not_eq_true', decide_eq_false_iff_not] at hnearer
        obtain ⟨hmeets, hbefore⟩ := hbest.1 b hb
        refine .inr ⟨b, hb, ?_⟩
        rcases Single.lt_or_eq_or_lt_of_pos hmeets.pos hhit.1.pos with hlt | hdistance | hlt
        · exact .inl hlt
        · rw [heq]
          exact .inr ⟨hdistance, hbefore⟩
        · exact absurd hlt hnearer
    · rename_i htake
      rw [Bool.or_eq_true, not_or, Bool.not_eq_true, Bool.not_eq_true, Option.any_eq_false] at htake
      obtain ⟨hnearer, hkept⟩ := htake
      apply hbest.take
      · refine ⟨⟨o, level, g, ho, rfl, hfate, hprimitive, hi, ⟨inverse, hinverse, hmeet⟩, rfl, hkept⟩, ?_⟩
        exact .inr ⟨rfl, Nat.lt_succ_self i⟩
      · intro hit hhit
        rcases hnew hit hhit with hold | ⟨hmeet', -, heq⟩
        · exact .inl hold
        · obtain rfl : t = hit.distance := Option.some.inj (hmeet.symm.trans hmeet')
          exact .inr heq
      · intro b hb
        exact .inl (by simpa using hnearer b hb)

/-- All triangles of an object, one after the other. -/
lemma nearest_foldl_pickTriangle (hprimitive : g.primitive = .triangles)
    (hbest : Nearest (l.MeetsBefore s ray key 0) best) {n : Nat} (hn : n ≤ g.triangleCount) :
    Nearest (l.MeetsBefore s ray key n)
      ((List.range n).foldl (l.pickTriangle ray (ray.within inverse) g (o, key)) best) := by
  induction n with
  | zero => exact hbest
  | succ n ih =>
    rw [List.range_succ, List.foldl_append]
    exact nearest_pickTriangle ho hfate hinverse hprimitive hn (ih (Nat.le_of_succ_le hn))

end Object

/-- A drawn object is passed by if the ray enters its box behind the nearest hit so far. -/
lemma pickObject_eq_of_entered {entry : Float32} (hfate : l.fate s o = .visible level g)
    (hinverse : o.inverse = some inverse) (hprimitive : g.primitive = .triangles)
    (hentry : o.worldBounds.rayEntry? ray.origin ray.direction = some entry)
    (hlocal : (g.bounds.rayEntry? (ray.within inverse).origin (ray.within inverse).direction).isSome = true) :
    l.pickObject s ray best (o, key) = if best.any (·.distance < entry) = true then best else
      (List.range g.triangleCount).foldl (l.pickTriangle ray (ray.within inverse) g (o, key)) best := by
  obtain ⟨hshows, hactive⟩ := fate_eq_visible_iff.mp hfate
  have hmissed : (g.bounds.rayEntry? (inverse.transformPoint ray.origin)
      (inverse.transformVector ray.direction)).isNone = false := by
    rw [← Option.not_isSome, Bool.not_eq_false']
    exact hlocal
  simp only [pickObject, hshows, hentry, hinverse, hactive, hprimitive, hmissed, Bool.not_true,
    Bool.false_eq_true, if_false, reduceCtorEq, decide_false, Bool.or_false]
  rfl

/-- An object is done when none of its hits comes before the nearest one. -/
lemma nearest_next_of_passed (hbest : Nearest (l.MeetsBefore s ray key 0) best)
    (hpassed : ∀ hit, l.Meets s ray hit → hit.object = key → ∃ b ∈ best, b.Before hit) :
    Nearest (l.MeetsBefore s ray (key + 1) 0) best := by
  apply hbest.skip
  · rintro hit ⟨hmeets, hbefore⟩
    exact meetsBefore_next_iff.mpr ⟨hmeets, .inl (precedes_zero_iff.mp hbefore)⟩
  · intro hit hhit
    obtain ⟨hmeets, hlt | hkey⟩ := meetsBefore_next_iff.mp hhit
    · exact .inl ⟨hmeets, .inl hlt⟩
    · exact .inr (hpassed hit hmeets hkey)

/-- An object is done when all its triangles have been looked at. -/
lemma nearest_next_of_foldl (ho : s.object? key = some o) (hfate : l.fate s o = .visible level g)
    (hinverse : o.inverse = some inverse) (hprimitive : g.primitive = .triangles)
    (hbest : Nearest (l.MeetsBefore s ray key 0) best) :
    Nearest (l.MeetsBefore s ray (key + 1) 0)
      ((List.range g.triangleCount).foldl (l.pickTriangle ray (ray.within inverse) g (o, key)) best) := by
  apply (nearest_foldl_pickTriangle ho hfate hinverse hprimitive hbest le_rfl).congr
  intro hit
  rw [meetsBefore_next_iff]
  constructor
  · rintro ⟨hmeets, hlt | ⟨hkey, -⟩⟩
    · exact ⟨hmeets, .inl hlt⟩
    · exact ⟨hmeets, .inr hkey⟩
  · rintro ⟨hmeets, hlt | hkey⟩
    · exact ⟨hmeets, .inl hlt⟩
    · exact ⟨hmeets, .inr ⟨hkey, (hmeets.eq_of_object ho hfate hinverse hkey).2.1⟩⟩

/-- The boxes of an object with a hit are entered. -/
lemma BoxesSound.entered (hsound : l.BoxesSound s ray) (ho : s.object? key = some o)
    (hfate : l.fate s o = .visible level g) (hinverse : o.inverse = some inverse)
    (hmeets : l.Meets s ray hit) (hkey : hit.object = key) :
    (∃ entry ∈ o.worldBounds.rayEntry? ray.origin ray.direction, entry ≤ hit.distance) ∧
      (g.bounds.rayEntry? (ray.within inverse).origin (ray.within inverse).direction).isSome = true := by
  obtain ⟨hprimitive, hi, hmeet, -⟩ := hmeets.eq_of_object ho hfate hinverse hkey
  obtain ⟨hshows, hactive⟩ := fate_eq_visible_iff.mp hfate
  exact hsound o (Array.mem_of_getElem? ho) hshows inverse hinverse (level, g) hactive hprimitive _ hi _ hmeet

/-- One object. If it has no hit it does not matter why it is passed by. -/
lemma nearest_pickObject (hsound : l.BoxesSound s ray) (ho : s.object? key = some o)
    (hbest : Nearest (l.MeetsBefore s ray key 0) best) :
    Nearest (l.MeetsBefore s ray (key + 1) 0) (l.pickObject s ray best (o, key)) := by
  by_cases hany : ∃ hit, l.Meets s ray hit ∧ hit.object = key
  · obtain ⟨hit, hmeets, hkey⟩ := hany
    obtain ⟨o', level, g, hhits⟩ := id hmeets
    obtain rfl : o = o' := Option.some.inj (ho.symm.trans (hkey ▸ hhits.object))
    obtain ⟨inverse, hinverse, -⟩ := hhits.meets
    obtain ⟨⟨entry, hentry, -⟩, hlocal⟩ := hsound.entered ho hhits.fate hinverse hmeets hkey
    rw [pickObject_eq_of_entered hhits.fate hinverse hhits.primitive hentry hlocal]
    split
    · rename_i hbehind
      rw [Option.any_eq_true] at hbehind
      obtain ⟨b, hb, hlt⟩ := hbehind
      apply nearest_next_of_passed hbest
      intro other hother hkey'
      -- the ray enters the box behind the nearest hit, and meets the triangle no earlier
      obtain ⟨⟨entry', hentry', hle⟩, -⟩ := hsound.entered ho hhits.fate hinverse hother hkey'
      obtain rfl : entry = entry' := Option.some.inj (hentry.symm.trans hentry')
      exact ⟨b, hb, .inl (Single.lt_of_lt_of_le (of_decide_eq_true hlt) hle)⟩
    · exact nearest_next_of_foldl ho hhits.fate hinverse hhits.primitive hbest
  · rcases l.pickObject_cases s ray best o key with heq | ⟨inverse, level, g, hfate, hinverse, hprimitive, heq⟩
    · rw [heq]
      exact nearest_next_of_passed hbest fun hit hmeets hkey => absurd ⟨hit, hmeets, hkey⟩ hany
    · rw [heq]
      exact nearest_next_of_foldl ho hfate hinverse hprimitive hbest

/-- All objects from `key` on. -/
lemma nearest_foldl_pickObject (hsound : l.BoxesSound s ray) (objects : List (SceneObject Float32))
    (hkeyed : ∀ o k, (o, k) ∈ objects.zipIdx key → s.object? k = some o)
    (hbest : Nearest (l.MeetsBefore s ray key 0) best) :
    Nearest (l.MeetsBefore s ray (key + objects.length) 0)
      ((objects.zipIdx key).foldl (l.pickObject s ray) best) := by
  induction objects generalizing key best with
  | nil => exact hbest
  | cons o objects ih =>
    rw [List.zipIdx_cons] at hkeyed ⊢
    rw [List.foldl_cons, List.length_cons, Nat.add_comm objects.length, ← Nat.add_assoc]
    apply ih
    · intro o' k hmem
      exact hkeyed o' k (List.mem_cons_of_mem _ hmem)
    · exact nearest_pickObject hsound (hkeyed o key List.mem_cons_self) hbest

/-- A ray that can be made one unit long, and that meets nothing outside of the boxes, picks the first of all
hits on what is drawn, by distance, then by object, then by triangle. It picks nothing only if there is no
hit. -/
theorem pickRay?_isFirst (l : Look Float32) (s : Scene Float32) (ray r : Ray Float32)
    (hray : Ray.ofDirection? ray.origin ray.direction = some r) (hsound : l.BoxesSound s r) :
    (∀ hit, l.pickRay? s ray = some hit ↔ IsFirst (l.Meets s r) hit) ∧
      (l.pickRay? s ray = none ↔ ¬ ∃ hit, l.Meets s r hit) := by
  have hstart : Nearest (l.MeetsBefore s r 0 0) none := by
    constructor
    · intro b hb
      cases hb
    · rintro hit ⟨-, hbefore⟩
      exact absurd (precedes_zero_iff.mp hbefore) (Nat.not_lt_zero _)
  have hend := nearest_foldl_pickObject hsound s.objects.toList (fun o k => Scene.mem_keyed_iff.mp) hstart
  -- every hit is on some object of the scene
  have hall : Nearest (l.Meets s r) (l.pickRay? s ray) := by
    simp only [pickRay?, hray]
    apply hend.congr
    intro hit
    refine ⟨fun h => h.1, fun hmeets => ⟨hmeets, .inl ?_⟩⟩
    obtain ⟨o, level, g, hhits⟩ := hmeets
    rw [Nat.zero_add]
    exact (Array.getElem?_eq_some_iff.mp hhits.object).1
  exact ⟨fun hit => hall.eq_some_iff, hall.eq_none_iff⟩

end Look

/-- A triangle over the corner of the floor, which falls by `slope` along it. -/
def roofTriangle (slope : Float32) : Geometry Float32 :=
  let m : Mesh Float32 := ⟨#[0, 0, 0, 4, 0, -slope, 0, 4, 0], #[0, 0, 1, 0, 0, 1, 0, 0, 1], #[0, 1, 2]⟩
  { entity := 7, kind := .wall, primitive := .triangles, mesh := m, color := ⟨0.5, 0.5, 0.5⟩
    bounds := Box.ofPoints m.points
    hash := Digest.hash64 (m.contentBytes .triangles) }

/-- Triangles one above the other. The highest one falls steeply, and two are at one height. -/
def stackedRoof : Scene Float32 :=
  let flat := roofTriangle 0
  let steep := roofTriangle 4
  let raised (entity : EntityId) (slot : Nat) (g : Geometry Float32) (height : Float32) : SceneObject Float32 :=
    let m : Mat4 Float32 := ⟨⟨1, 0, 0, 0⟩, ⟨0, 1, 0, 0⟩, ⟨0, 0, 1, 0⟩, ⟨0, 0, height, 1⟩⟩
    ⟨entity, .wall, none, slot, m, m.inverse?, g.bounds.transformed m, g.color⟩
  { geometries := #[⟨flat, []⟩, ⟨steep, []⟩]
    objects := #[raised 1 1 steep 6, raised 2 0 flat 4, raised 3 0 flat 4, raised 4 0 flat 4.25,
      raised 5 0 flat 2]
    bounds := ⟨⟨0, 0, 2⟩, ⟨4, 4, 6⟩⟩ }

/-- A look from above. The fourth triangle is hidden, and what is above a height is clipped. -/
def lookAtRoof : Look Float32 where
  frustum := ⟨[⟨⟨0, 0, -1⟩, 20⟩]⟩
  eye := ⟨1, 1, 10⟩
  thresholds := ⟨10, 50, 150⟩
  filter := (VisibilityFilter.empty.hideEntity 4).setClipping ⟨[⟨⟨0, 0, -1⟩, -4.5, true, false⟩]⟩

/-- Every triangle that the ray meets lies in boxes that it enters by then. -/
lemma boxesSound_stackedRoof : lookAtRoof.BoxesSound stackedRoof ⟨⟨1, 1, 10⟩, ⟨0, 0, -1⟩⟩ := by
  unfold Look.BoxesSound
  decide +kernel

/-- The ray down, made one unit long. -/
lemma ofDirection?_down :
    Ray.ofDirection? ⟨1, 1, 10⟩ ⟨0, 0, -8⟩ = some (⟨⟨1, 1, 10⟩, ⟨0, 0, -1⟩⟩ : Ray Float32) := by
  have hunit : (⟨0, 0, -8⟩ : Vec3 Float32).normalize? Ray.tolerance = some ⟨0, 0, -1⟩ := by decide +kernel
  rw [Ray.ofDirection?, hunit, Option.map_some]

/-- The steep triangle is clipped where the ray meets it, and the hidden one is passed by. Of the two at one
height the first is picked, and the ray enters the box of the lowest one only behind it. -/
theorem Look.pickRay?_isFirst_stackedRoof :
    (lookAtRoof.pickRay? stackedRoof ⟨⟨1, 1, 10⟩, ⟨0, 0, -8⟩⟩).map (·.entity) = some 2 ∧
    Ray.ofDirection? ⟨1, 1, 10⟩ ⟨0, 0, -8⟩ = some (⟨⟨1, 1, 10⟩, ⟨0, 0, -1⟩⟩ : Ray Float32) ∧
    lookAtRoof.BoxesSound stackedRoof ⟨⟨1, 1, 10⟩, ⟨0, 0, -1⟩⟩ ∧
    ∀ hit, lookAtRoof.pickRay? stackedRoof ⟨⟨1, 1, 10⟩, ⟨0, 0, -8⟩⟩ = some hit ↔
      PickHit.IsFirst (lookAtRoof.Meets stackedRoof ⟨⟨1, 1, 10⟩, ⟨0, 0, -1⟩⟩) hit := by
  refine ⟨by decide +kernel, ofDirection?_down, boxesSound_stackedRoof, ?_⟩
  exact (pickRay?_isFirst lookAtRoof stackedRoof ⟨⟨1, 1, 10⟩, ⟨0, 0, -8⟩⟩ ⟨⟨1, 1, 10⟩, ⟨0, 0, -1⟩⟩
    ofDirection?_down boxesSound_stackedRoof).1

end BuildingModel
