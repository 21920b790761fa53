import BuildingModel.Proofs.Exchange.Grammar
import BuildingModel.Proofs.Number.Comparison
import BuildingModel.Proofs.Shape.Edges
import BuildingModel.Shape.Method
import Mathlib

/-!
# Curves over lists of points

The segments of a curve name points of a list by numbers from one on. Numbers come as they are written, over the
whole range of 64 bits, and their places are computed in 64 bits. This gives the same points as exact integers would,
but for the least number, whose place overflows (`numberedPoint_eq`). So a curve goes through exactly the points that
are named, without those that repeat the one before, or is refused for the first number that names none; if that is
the least number, nothing is said of it, because the computation ends there (`LinkedModel.curvePoints_selects`).
-/

namespace BuildingModel

/-! ## Repeated points -/

/-- A list without the members that are the same as the one before. -/
def changes (ps : List (Vec3 Float)) : List (Vec3 Float) :=
  ps.head?.toList ++ ((ps.zip ps.tail).filter fun e => !e.2.same e.1).map (·.2)

/-- A point is kept if it differs from the one before it. -/
lemma changes_cons_cons (p q : Vec3 Float) (ps : List (Vec3 Float)) :
    changes (p :: q :: ps) = p :: if q.same p then (changes (q :: ps)).tail else changes (q :: ps) := by
  cases hsame : q.same p <;> simp [changes, hsame]

/-- What is the same as one of two points that are the same is the same as the other one. -/
lemma Vec3.same_congr {p q : Vec3 Float} (h : p.same q = true) (r : Vec3 Float) : r.same p = r.same q := by
  simp only [Vec3.same, Bool.and_eq_true] at h
  obtain ⟨⟨hx, hy⟩, hz⟩ := h
  simp only [Vec3.same]
  rw [Double.beq_congr hx, Double.beq_congr hy, Double.beq_congr hz]

/-- The last point that was kept is the same as the one before, so that either may be compared with the next. -/
lemma dropSame_eq {last p : Vec3 Float} (h : ∀ r : Vec3 Float, r.same last = r.same p) (ps : List (Vec3 Float)) :
    dropSame last ps = (changes (p :: ps)).tail := by
  induction ps generalizing last p with
  | nil => rfl
  | cons q ps ih =>
    rw [dropSame, changes_cons_cons, List.tail_cons, h]
    split
    · rename_i hsame
      apply ih
      intro r
      rw [h, Vec3.same_congr hsame]
    · rw [ih fun _ => rfl]
      rfl

/-- Dropping repetitions from the end on keeps the changes. -/
lemma withoutRepeats_eq_changes (ps : List (Vec3 Float)) : withoutRepeats ps = changes ps := by
  cases ps with
  | nil => rfl
  | cons p ps =>
    rw [withoutRepeats, dropSame_eq fun _ => rfl]
    rfl

/-! ## Numbers of points -/

/-- The point with a number from one on, by exact integers. -/
def exactPoint? (points : List (Vec3 Float)) (number : ℤ) : Option (Vec3 Float) :=
  if 1 ≤ number then points[(number - 1).toNat]? else none

/-- A difference in 64 bits is the difference of the integers, if it is given. -/
lemma difference?_eq_some_iff {a b c : Int64} : difference? a b = some c ↔ c.toInt = a.toInt - b.toInt := by
  rw [difference?]
  constructor
  · intro h
    split at h
    · cases h
      assumption
    · cases h
  · intro h
    have hc : a - b = c := by
      rw [← Int64.toInt_inj, Int64.toInt_sub, ← h, Int64.toInt_bmod]
    rw [hc, if_pos h]

/-- The only number whose place overflows is the least one. -/
lemma difference?_one (n : Int64) :
    (n = Int64.minValue ∧ difference? n 1 = none) ∨
      (n ≠ Int64.minValue ∧ ∃ place, difference? n 1 = some place ∧ place.toInt = n.toInt - 1) := by
  have hone : (1 : Int64).toInt = 1 := rfl
  by_cases hn : n = Int64.minValue
  · subst hn
    exact .inl ⟨rfl, by decide⟩
  · have hmin : n.toInt ≠ -9223372036854775808 := fun h => hn (Int64.toInt_inj.mp h)
    have hle : -9223372036854775808 ≤ n.toInt := n.le_toInt
    have hlt : n.toInt < 9223372036854775808 := n.toInt_lt
    have hplace : (n - 1).toInt = n.toInt - 1 := by
      rw [Int64.toInt_sub, hone, Int.bmod_eq_of_le (by omega) (by omega)]
    exact .inr ⟨hn, n - 1, difference?_eq_some_iff.mpr hplace, hplace⟩

variable {points : List (Vec3 Float)}

/-- The number names a point of the list. -/
def NamesPoint (points : List (Vec3 Float)) (n : Int64) : Prop := 1 ≤ n.toInt ∧ n.toInt ≤ points.length

/-- A number that names no point has none. -/
lemma exactPoint?_eq_none_iff (n : Int64) : exactPoint? points n.toInt = none ↔ ¬ NamesPoint points n := by
  rw [exactPoint?, NamesPoint]
  split
  · rw [List.getElem?_eq_none_iff]
    omega
  · simp only [true_iff]
    omega

/-! ## Segments -/

/-- The numbers of the segments in reading order: the integers of the list with which a typed value begins. All other
segments and all other members of such a list count for nothing. -/
inductive Numbered : List LinkedValue → List Int64 → Prop where
  | nil : Numbered [] []
  | segment {name members args segments numbers} (h : Numbered segments numbers) :
      Numbered (.typed name (.list members :: args) :: segments) (members.filterMap LinkedValue.integer? ++ numbers)
  | other {v segments numbers} (hv : ∀ name members args, v ≠ .typed name (.list members :: args))
      (h : Numbered segments numbers) : Numbered (v :: segments) numbers

/-- What is no segment has no numbers. -/
lemma segmentNumbers_of_ne {v : LinkedValue} (hv : ∀ name members args, v ≠ .typed name (.list members :: args)) :
    v.segmentNumbers = [] := by
  cases v with
  | typed name args =>
    cases args with
    | nil => rfl
    | cons arg args =>
      cases arg with
      | list members => exact absurd rfl (hv name members args)
      | integer _ | real _ | text _ | enum _ | link _ | dangling _ | typed _ _ | omitted | derived => rfl
  | integer _ | real _ | text _ | enum _ | link _ | dangling _ | list _ | omitted | derived => rfl

/-- The numbers in reading order are those that are read. -/
lemma Numbered.eq {segments : List LinkedValue} {numbers : List Int64} (h : Numbered segments numbers) :
    segments.flatMap (·.segmentNumbers) = numbers := by
  induction h with
  | nil => rfl
  | segment h ih =>
    rw [List.flatMap_cons, ih]
    rfl
  | other hv h ih => rw [List.flatMap_cons, segmentNumbers_of_ne hv, ih, List.nil_append]

/-- Every list of values has numbers in reading order. -/
lemma exists_numbered (segments : List LinkedValue) : ∃ numbers, Numbered segments numbers := by
  induction segments with
  | nil => exact ⟨[], .nil⟩
  | cons v segments ih =>
    obtain ⟨numbers, h⟩ := ih
    by_cases hv : ∃ name members args, v = .typed name (.list members :: args)
    · obtain ⟨name, members, args, rfl⟩ := hv
      exact ⟨_, .segment h⟩
    · refine ⟨numbers, .other ?_ h⟩
      intro name members args heq
      exact hv ⟨name, members, args, heq⟩

section Reading

variable {β γ ε : Type} {f : β → Except ε γ}

/-- Reading stops at the first member that cannot be read. -/
lemma mapM_eq_error {good rest : List β} {bad : β} {e : ε} (hgood : ∀ x ∈ good, ∃ y, f x = .ok y)
    (hbad : f bad = .error e) : (good ++ bad :: rest).mapM f = .error e := by
  induction good with
  | nil =>
    rw [List.nil_append, List.mapM_cons, hbad]
    rfl
  | cons x good ih =>
    obtain ⟨⟨y, hy⟩, hgood⟩ := List.forall_mem_cons.mp hgood
    rw [List.cons_append, List.mapM_cons, hy, ih hgood]
    rfl

end Reading

section Segments

variable {curve : EntityId} {segments : List LinkedValue} {numbers : List Int64}

/-- The point with a number, or the error that names the number. -/
def readNumber (curve : EntityId) (points : List (Vec3 Float)) (n : Int64) : Except ShapeError (Vec3 Float) :=
  match exactPoint? points n.toInt with
  | some p => .ok p
  | none => .error (.geometry s!"#{curve}: segment index {n} out of range")

/-- In 64 bits a number gives the point that exact integers give, unless its place overflows. -/
lemma numberedPoint_eq (curve : EntityId) (points : List (Vec3 Float)) (n : Int64) :
    numberedPoint curve points.toArray n =
      if n = Int64.minValue then .error .overflow else readNumber curve points n := by
  rcases difference?_one n with ⟨hn, hnone⟩ | ⟨hn, place, hsome, hplace⟩
  · rw [numberedPoint, hnone, if_pos hn]
  · have hzero : (0 : Int64).toInt = 0 := rfl
    have hpos : 0 ≤ place ↔ 1 ≤ n.toInt := by
      rw [Int64.le_iff_toInt_le, hplace, hzero]
      omega
    rw [numberedPoint, hsome, if_neg hn, readNumber, exactPoint?]
    by_cases hone : 1 ≤ n.toInt
    · simp only [if_pos (hpos.mpr hone), if_pos hone, ← hplace, List.getElem?_toArray]
      rfl
    · simp only [if_neg (mt hpos.mp hone), if_neg hone]

/-- The points of the segments are read number by number. -/
lemma segmentPoints_eq (h : Numbered segments numbers) :
    segmentPoints curve points.toArray segments =
      (numbers.mapM (numberedPoint curve points.toArray) >>= fun found => .ok (changes found)) := by
  rw [segmentPoints, h.eq]
  simp only [withoutRepeats_eq_changes]
  rfl

/-- The error for a number that names no point. -/
def numberError (curve : EntityId) (n : Int64) : ShapeError :=
  if n = Int64.minValue then .overflow else .geometry s!"#{curve}: segment index {n} out of range"

/-- A number that names a point gives this point. -/
lemma numberedPoint_of_names (curve : EntityId) {n : Int64} (hn : NamesPoint points n) :
    ∃ p, points[n.toInt.toNat - 1]? = some p ∧ numberedPoint curve points.toArray n = .ok p := by
  have hplace : (n.toInt - 1).toNat = n.toInt.toNat - 1 := by omega
  have hlt : n.toInt.toNat - 1 < points.length := by
    obtain ⟨hone, hle⟩ := hn
    omega
  have hmin : n ≠ Int64.minValue := by
    rintro rfl
    exact absurd hn.1 (by decide)
  refine ⟨points[n.toInt.toNat - 1], List.getElem?_eq_getElem hlt, ?_⟩
  rw [numberedPoint_eq, if_neg hmin, readNumber, exactPoint?, if_pos hn.1, hplace, List.getElem?_eq_getElem hlt]

/-- A number that names no point gives the error for it. -/
lemma numberedPoint_of_not_names {n : Int64} (hn : ¬ NamesPoint points n) :
    numberedPoint curve points.toArray n = .error (numberError curve n) := by
  rw [numberedPoint_eq, numberError, readNumber, (exactPoint?_eq_none_iff n).mpr hn]
  split <;> rfl

/-- If every number names a point, all points are found. -/
lemma exists_selected (curve : EntityId) (hnumbers : ∀ n ∈ numbers, NamesPoint points n) :
    ∃ selected, List.Forall₂ (fun (n : Int64) p => points[n.toInt.toNat - 1]? = some p) numbers selected ∧
      List.Forall₂ (fun n p => numberedPoint curve points.toArray n = .ok p) numbers selected := by
  induction numbers with
  | nil => exact ⟨[], .nil, .nil⟩
  | cons n numbers ih =>
    obtain ⟨hn, hnumbers⟩ := List.forall_mem_cons.mp hnumbers
    obtain ⟨p, hp, hread⟩ := numberedPoint_of_names curve hn
    obtain ⟨selected, hselected, hreads⟩ := ih hnumbers
    exact ⟨p :: selected, .cons hp hselected, .cons hread hreads⟩

/-- Either every number names a point, or there is a first one that does not. -/
lemma names_or_first_bad (points : List (Vec3 Float)) (numbers : List Int64) :
    (∀ n ∈ numbers, NamesPoint points n) ∨
      ∃ good bad rest, numbers = good ++ bad :: rest ∧ (∀ n ∈ good, NamesPoint points n) ∧ ¬ NamesPoint points bad := by
  induction numbers with
  | nil => exact .inl (by simp)
  | cons n numbers ih =>
    by_cases hn : NamesPoint points n
    · rcases ih with hall | ⟨good, bad, rest, rfl, hgood, hbad⟩
      · exact .inl (List.forall_mem_cons.mpr ⟨hn, hall⟩)
      · exact .inr ⟨n :: good, bad, rest, rfl, List.forall_mem_cons.mpr ⟨hn, hgood⟩, hbad⟩
    · exact .inr ⟨[], n, numbers, rfl, by simp, hn⟩

end Segments

/-! ## Lines -/

/-- Triangles that are added follow those that are there. -/
lemma Mesh.triangles_addTriangles {α ι : Type} {m : Mesh α} (a b c : ι → UInt32) (ts : List ι)
    (hm : 3 ∣ m.indices.size) : (ts.foldl (fun m t => m.addTriangle (a t) (b t) (c t)) m).triangles =
      m.triangles ++ ts.map fun t => (a t, b t, c t) := by
  induction ts generalizing m with
  | nil => rw [List.foldl_nil, List.map_nil, List.append_nil]
  | cons t ts ih =>
    have ht : 3 ∣ (m.addTriangle (a t) (b t) (c t)).indices.size := by
      rw [size_indices_addTriangle]
      exact Nat.dvd_add hm (Nat.dvd_refl 3)
    have hlist : (m.addTriangle (a t) (b t) (c t)).indices.toList = m.indices.toList ++ [a t, b t, c t] := by
      simp [addTriangle]
    have htriangles : (m.addTriangle (a t) (b t) (c t)).triangles = m.triangles ++ [(a t, b t, c t)] := by
      rw [triangles, hlist, triples_append (by rwa [Array.length_toList])]
      rfl
    rw [List.foldl_cons, ih ht, htriangles, List.append_assoc]
    rfl

/-- The mesh runs along the points: one vertex for each, and one segment from each to the next. -/
structure Mesh.RunsAlong (mesh : Mesh Float32) (ps : List (Vec3 Float)) : Prop where
  count : mesh.vertexCount = ps.length
  points : mesh.points = ps.map Vec3.toSingle
  segments : mesh.triangles =
    (List.range (ps.length - 1)).map fun i => (i.toUInt32, (i + 1).toUInt32, (i + 1).toUInt32)

namespace LinkedModel

variable {m : LinkedModel} {item : LinkedEntity} {ps : List (Vec3 Float)}

/-- Fewer than two points make no line. -/
lemma curveMesh_of_short (hps : m.curvePoints item = .ok ps) (hshort : ps.length < 2) :
    m.curveMesh item = .error (.emptyMesh s!"#{item.id}: curve with {ps.length} points") := by
  rw [curveMesh, hps]
  exact if_pos hshort

/-- Two or more points make a line along them. -/
lemma exists_curveMesh (hps : m.curvePoints item = .ok ps) (hlong : 2 ≤ ps.length) :
    ∃ mesh, m.curveMesh item = .ok mesh ∧ mesh.RunsAlong ps := by
  have hmesh : m.curveMesh item = .ok ((List.range (ps.length - 1)).foldl
      (fun mesh i => mesh.addTriangle i.toUInt32 (i + 1).toUInt32 (i + 1).toUInt32)
      (ps.foldl (fun mesh p => mesh.addVertex p.toSingle Vec3.unitZ.toSingle) Mesh.empty)) := by
    rw [curveMesh, hps]
    exact if_neg (by omega)
  have hpoints := Mesh.points_addVertices Vec3.toSingle (fun _ => Vec3.unitZ.toSingle) ps
    (m := Mesh.empty) (Nat.dvd_zero 3)
  have hindices := Mesh.indices_addVertices Vec3.toSingle (fun _ => Vec3.unitZ.toSingle) ps (m := Mesh.empty)
  have hall : ∀ mesh : Mesh Float32, m.curveMesh item = .ok mesh → mesh.points = ps.map Vec3.toSingle := by
    intro mesh h
    rw [hmesh] at h
    cases h
    rw [Mesh.points_addTriangles, hpoints]
    rfl
  refine ⟨_, hmesh, ?_, hall _ hmesh, ?_⟩
  · rw [← Mesh.length_points, hall _ hmesh, List.length_map]
  · rw [Mesh.triangles_addTriangles _ _ _ _ (by rw [hindices]; exact Nat.dvd_zero 3), Mesh.triangles, hindices]
    rfl

/-- The points of a curve with segments are those of the segments. -/
lemma curvePoints_of_segments {list : LinkedEntity} {segments : List LinkedValue}
    (hkind : item.kind = .indexedPolyCurve) (hlist : m.required item 0 = .ok list)
    (hpoints : list.pointList = .ok points) (hsegments : item.list? 1 = some segments) :
    m.curvePoints item = segmentPoints item.id points.toArray segments := by
  rw [curvePoints, hkind]
  simp only [hlist, hsegments]
  change (list.pointList >>= fun points => segmentPoints item.id points.toArray segments) = _
  rw [hpoints]
  rfl

/-- What is read of a curve with certain numbers. -/
structure SelectsPoints (curve : EntityId) (points : List (Vec3 Float)) (numbers : List Int64)
    (result : Except ShapeError (List (Vec3 Float))) : Prop where
  /-- The curve is refused for the first number that names no point, and the error names it, unless it is the least
  number. -/
  refused : ∀ good bad rest, numbers = good ++ bad :: rest → (∀ n ∈ good, NamesPoint points n) →
    ¬ NamesPoint points bad → bad ≠ Int64.minValue →
    result = .error (.geometry s!"#{curve}: segment index {bad} out of range")
  /-- If every number names a point, these points are given, without those that are the same as the one before. -/
  selected : (∀ n ∈ numbers, NamesPoint points n) →
    ∃ selected, List.Forall₂ (fun (n : Int64) p => points[n.toInt.toNat - 1]? = some p) numbers selected ∧
      result = .ok (changes selected)
  /-- The computation overflows exactly if the least number is the first that names no point. -/
  overflows : result = .error .overflow ↔
    ∃ good rest, numbers = good ++ Int64.minValue :: rest ∧ ∀ n ∈ good, NamesPoint points n

/-- What is read number by number, and then without repetitions, selects points. -/
lemma selectsPoints_mapM (curve : EntityId) (points : List (Vec3 Float)) (numbers : List Int64) :
    SelectsPoints curve points numbers
      (numbers.mapM (numberedPoint curve points.toArray) >>= fun found => .ok (changes found)) := by
  have hleast : ¬ NamesPoint points Int64.minValue := fun h => absurd h.1 (by decide)
  have hstops : ∀ good bad rest, numbers = good ++ bad :: rest → (∀ n ∈ good, NamesPoint points n) →
      ¬ NamesPoint points bad →
      (numbers.mapM (numberedPoint curve points.toArray) >>= fun found => .ok (changes found)) =
        .error (numberError curve bad) := by
    rintro good bad rest rfl hgood hbad
    have hread : ∀ n ∈ good, ∃ p, numberedPoint curve points.toArray n = .ok p := by
      intro n hn
      obtain ⟨p, -, hp⟩ := numberedPoint_of_names curve (hgood n hn)
      exact ⟨p, hp⟩
    rw [mapM_eq_error hread (numberedPoint_of_not_names hbad)]
    rfl
  refine ⟨?_, ?_, ?_⟩
  · intro good bad rest hsplit hgood hbad hmin
    rw [hstops good bad rest hsplit hgood hbad, numberError, if_neg hmin]
  · intro hall
    obtain ⟨selected, hselected, hread⟩ := exists_selected curve hall
    refine ⟨selected, hselected, ?_⟩
    rw [Exchange.mapM_eq_ok hread]
    rfl
  · constructor
    · intro hover
      rcases names_or_first_bad points numbers with hall | ⟨good, bad, rest, hsplit, hgood, hbad⟩
      · obtain ⟨selected, -, hread⟩ := exists_selected curve hall
        rw [Exchange.mapM_eq_ok hread] at hover
        cases hover
      · rw [hstops good bad rest hsplit hgood hbad, numberError] at hover
        split at hover
        · rename_i hmin
          exact ⟨good, rest, hmin ▸ hsplit, hgood⟩
        · cases hover
    · rintro ⟨good, rest, hsplit, hgood⟩
      rw [hstops good _ rest hsplit hgood hleast]
      rfl

/-- A curve over a list of points is read by 64-bit numbers as it would be by exact integers, unless the place of a
number overflows, which happens for the least number only. Its mesh runs along its points, if there are two of
them. -/
theorem curvePoints_selects (m : LinkedModel) (e list : LinkedEntity) (points : List (Vec3 Float))
    (segments : List LinkedValue) (hkind : e.kind = .indexedPolyCurve) (hlist : m.required e 0 = .ok list)
    (hpoints : list.pointList = .ok points) (hsegments : e.list? 1 = some segments) :
    (∃ numbers, Numbered segments numbers ∧ SelectsPoints e.id points numbers (m.curvePoints e)) ∧
    ∀ item ps, m.curvePoints item = .ok ps →
      (ps.length < 2 → ShapeMethod.curve.mesh m item =
        .error (.emptyMesh s!"#{item.id}: curve with {ps.length} points")) ∧
      (2 ≤ ps.length → ∃ mesh, ShapeMethod.curve.mesh m item = .ok mesh ∧ mesh.RunsAlong ps) := by
  refine ⟨?_, ?_⟩
  · obtain ⟨numbers, hnumbers⟩ := exists_numbered segments
    refine ⟨numbers, hnumbers, ?_⟩
    rw [curvePoints_of_segments hkind hlist hpoints hsegments, segmentPoints_eq hnumbers]
    exact selectsPoints_mapM e.id points numbers
  · intro item ps hps
    exact ⟨curveMesh_of_short hps, exists_curveMesh hps⟩

/-- Three points. -/
def cornerPoints : List (Vec3 Float) := [⟨0, 0, 0⟩, ⟨1, 0, 0⟩, ⟨1, 1, 0⟩]

def cornerList : LinkedEntity :=
  ⟨1, .cartesianPointList2D,
    [.list [.list [.real 0, .real 0], .list [.real 1, .real 0], .list [.real 1, .real 1]]]⟩

/-- Two segments, which meet in the second point. Between them stands something that is no segment, and among the
numbers something that is no integer. -/
def cornerSegments : List LinkedValue :=
  [.typed "IFCLINEINDEX" [.list [.integer 1, .integer 2]], .integer 9,
    .typed "IFCLINEINDEX" [.list [.integer 2, .real 5, .integer 3]]]

/-- A segment with a number that is too large after the number of a point, and the least number of 64 bits after
that. -/
def brokenSegments : List LinkedValue :=
  [.typed "IFCLINEINDEX" [.list [.integer 3, .integer 4, .integer Int64.minValue]]]

def cornerCurve : LinkedEntity := ⟨2, .indexedPolyCurve, [.link 0, .list cornerSegments]⟩

def brokenCurve : LinkedEntity := ⟨3, .indexedPolyCurve, [.link 0, .list brokenSegments]⟩

def cornerModel : LinkedModel := { entities := #[cornerList, cornerCurve, brokenCurve] }

/-- The corner is selected by its numbers. In the other curve the first number that names no point is refused, not the
least one after it. -/
theorem curvePoints_selects_corner :
    (cornerModel.required cornerCurve 0 = .ok cornerList ∧ cornerModel.required brokenCurve 0 = .ok cornerList ∧
      cornerList.pointList = .ok cornerPoints ∧ cornerCurve.list? 1 = some cornerSegments ∧
      brokenCurve.list? 1 = some brokenSegments) ∧
    (cornerModel.curvePoints cornerCurve = .ok cornerPoints ∧
      ∃ mesh, ShapeMethod.curve.mesh cornerModel cornerCurve = .ok mesh ∧ mesh.RunsAlong cornerPoints) ∧
    cornerModel.curvePoints brokenCurve =
      .error (.geometry s!"#{brokenCurve.id}: segment index {(4 : Int64)} out of range") := by
  have hlist : cornerModel.required cornerCurve 0 = .ok cornerList := rfl
  have hlist' : cornerModel.required brokenCurve 0 = .ok cornerList := rfl
  have hpoints : cornerList.pointList = .ok cornerPoints := rfl
  refine ⟨⟨hlist, hlist', hpoints, rfl, rfl⟩, ?_, ?_⟩
  · obtain ⟨⟨numbers, hnumbers, hselects⟩, hmesh⟩ :=
      curvePoints_selects cornerModel cornerCurve cornerList cornerPoints _ rfl hlist hpoints rfl
    obtain rfl : [1, 2, 2, 3] = numbers := hnumbers.eq
    have hnames : ∀ n ∈ [1, 2, 2, (3 : Int64)], NamesPoint cornerPoints n := by
      simp only [List.forall_mem_cons]
      exact ⟨⟨by decide +kernel, by decide +kernel⟩, ⟨by decide +kernel, by decide +kernel⟩,
        ⟨by decide +kernel, by decide +kernel⟩, ⟨by decide +kernel, by decide +kernel⟩, by simp⟩
    obtain ⟨selected, hselected, hcurve⟩ := hselects.selected hnames
    obtain ⟨p₁, _, h₁, hrest₁, rfl⟩ := List.forall₂_cons_left_iff.mp hselected
    obtain ⟨p₂, _, h₂, hrest₂, rfl⟩ := List.forall₂_cons_left_iff.mp hrest₁
    obtain ⟨p₃, _, h₃, hrest₃, rfl⟩ := List.forall₂_cons_left_iff.mp hrest₂
    obtain ⟨p₄, _, h₄, hrest₄, rfl⟩ := List.forall₂_cons_left_iff.mp hrest₃
    obtain rfl := List.forall₂_nil_left_iff.mp hrest₄
    cases h₁
    cases h₂
    cases h₃
    cases h₄
    have hpoints : cornerModel.curvePoints cornerCurve = .ok cornerPoints := hcurve
    exact ⟨hpoints, (hmesh cornerCurve cornerPoints hpoints).2 (by decide)⟩
  · obtain ⟨⟨numbers, hnumbers, hselects⟩, -⟩ :=
      curvePoints_selects cornerModel brokenCurve cornerList cornerPoints _ rfl hlist' hpoints rfl
    obtain rfl : [3, 4, Int64.minValue] = numbers := hnumbers.eq
    have hgood : ∀ n ∈ [(3 : Int64)], NamesPoint cornerPoints n := by
      simp only [List.forall_mem_singleton]
      exact ⟨by decide +kernel, by decide +kernel⟩
    have hbad : ¬ NamesPoint cornerPoints 4 := fun h => absurd h.2 (by decide +kernel)
    exact hselects.refused [3] 4 [Int64.minValue] rfl hgood hbad (by decide)

/-- A curve with a segment from the first point to the second, and one with the least number of 64 bits. -/
def overflowingCurve : LinkedEntity :=
  ⟨2, .indexedPolyCurve, [.link 0, .list [.typed "IFCLINEINDEX" [.list [.integer 1, .integer 2]],
    .typed "IFCLINEINDEX" [.list [.integer Int64.minValue, .integer 3]]]]⟩

/-- The least number names no point, and no error names it. -/
theorem curvePoints_overflowingCurve :
    ¬ NamesPoint cornerPoints Int64.minValue ∧
    LinkedModel.curvePoints { entities := #[cornerList, overflowingCurve] } overflowingCurve = .error .overflow :=
  ⟨fun h => absurd h.1 (by decide +kernel), rfl⟩

end LinkedModel

end BuildingModel
