import Mathlib
import BuildingModel.Shape.Geometry

/-!
# The content of geometries

What two geometries with the same digest have in common. The digest is taken of the words of a mesh: its
positions, then its indices, without their numbers. Hence equal bytes mean the same way of drawing and
the same words (`Mesh.contentBytes_eq_iff`), but the words may be divided differently: of two such
geometries, one may hold as its first indices what the other one holds as its last positions
(`Geometry.Shifted`). For geometries that have been accepted this takes vertices whose coordinates, read
as whole numbers, are less than the number of vertices before them (`Geometry.Shifted.small`).
-/

namespace BuildingModel

/-- The four bytes of a word determine it. -/
lemma wordBytes_injective : Function.Injective wordBytes := by
  intro a b h
  simp only [wordBytes, List.cons.injEq, and_true] at h
  obtain ⟨h0, h1, h2, h3⟩ := h
  have e0 := congrArg UInt8.toNat h0
  have e1 := congrArg UInt8.toNat h1
  have e2 := congrArg UInt8.toNat h2
  have e3 := congrArg UInt8.toNat h3
  have ha := a.toNat_lt
  have hb := b.toNat_lt
  simp only [UInt32.toNat_toUInt8, UInt32.toNat_shiftRight, UInt32.reduceToNat, Nat.reduceMod,
    Nat.shiftRight_eq_div_pow, Nat.reducePow] at e0 e1 e2 e3 ha hb
  apply UInt32.toNat.inj
  omega

/-- The bytes of some words determine the words. -/
lemma flatMap_wordBytes_injective : Function.Injective (List.flatMap wordBytes) := by
  intro xs ys h
  induction xs generalizing ys with
  | nil =>
    cases ys with
    | nil => rfl
    | cons y ys => simp [wordBytes] at h
  | cons x xs ih =>
    cases ys with
    | nil => simp [wordBytes] at h
    | cons y ys =>
      rw [List.flatMap_cons, List.flatMap_cons] at h
      obtain ⟨hxy, hrest⟩ := List.append_inj h rfl
      rw [wordBytes_injective hxy, ih hrest]

/-- The ways of drawing have different bytes. -/
lemma Primitive.tag_injective : Function.Injective Primitive.tag := by
  intro p q h
  cases p <;> cases q <;> first | rfl | cases h

/-- The bits of all positions in order. -/
def Mesh.positionBits {α : Type} [Stored α] (m : Mesh α) : List UInt32 :=
  m.positions.toList.map Stored.bits

/-- All that a digest is taken of, but the way of drawing. -/
def Mesh.words {α : Type} [Stored α] (m : Mesh α) : List UInt32 :=
  m.positionBits ++ m.indices.toList

/-- Equal bytes mean the same way of drawing and the same words. -/
theorem Mesh.contentBytes_eq_iff {α : Type} [Stored α] {m n : Mesh α} {p q : Primitive} :
    m.contentBytes p = n.contentBytes q ↔ p = q ∧ m.words = n.words := by
  have hbytes : ∀ (m : Mesh α) (p : Primitive),
      m.contentBytes p = p.tag :: m.words.flatMap wordBytes := by
    intro m p
    rw [contentBytes, words, positionBits, List.flatMap_append, List.flatMap_map]
    rfl
  rw [hbytes, hbytes, List.cons.injEq, Primitive.tag_injective.eq_iff,
    flatMap_wordBytes_injective.eq_iff]

namespace Geometry

variable {α : Type} [Stored α] {g h : Geometry α}

/-- The geometry is the result of a check. -/
def Accepted (g : Geometry α) : Prop :=
  ∃ entity kind primitive m color, ofMesh entity kind primitive m color = .ok g

/-- What the digest of a geometry is taken of. -/
def contentBytes (g : Geometry α) : List UInt8 := g.mesh.contentBytes g.primitive

/-- The digest tells the contents of two geometries apart. -/
def NoCollision (g h : Geometry α) : Prop :=
  Digest.hash64 g.contentBytes = Digest.hash64 h.contentBytes → g.contentBytes = h.contentBytes

/-- Two geometries with the same way of drawing, the same positions, bit by bit, and the same indices. -/
structure SameContent (g h : Geometry α) : Prop where
  primitive : g.primitive = h.primitive
  positions : g.mesh.positionBits = h.mesh.positionBits
  indices : g.mesh.indices = h.mesh.indices

/-- The first indices of `g` are, as bits, the last positions of `h`; everything else is the same. -/
def Shifted (g h : Geometry α) : Prop :=
  g.primitive = h.primitive ∧ ∃ extra, extra ≠ [] ∧
    h.mesh.positionBits = g.mesh.positionBits ++ extra ∧
    g.mesh.indices.toList = extra ++ h.mesh.indices.toList

/-- A mesh has no fault exactly if neither buffer is empty, both hold groups of three, every index is below
the number of vertices in 32 bits and every position is finite. -/
theorem fault?_eq_none_iff {entity : EntityId} {m : Mesh α} :
    fault? entity m = none ↔
      m.positions ≠ #[] ∧ m.indices ≠ #[] ∧ m.positions.size % 3 = 0 ∧ m.indices.size % 3 = 0 ∧
      (∀ i ∈ m.indices, i < m.vertexCount.toUInt32) ∧ ∀ x ∈ m.positions, Scalar.isFinite x = true := by
  unfold fault?
  dsimp only
  constructor
  · intro hnone
    split at hnone
    · cases hnone
    · rename_i hempty
      split at hnone
      · cases hnone
      · rename_i hthree
        split at hnone
        · cases hnone
        · rename_i hfind
          split at hnone
          · cases hnone
          · rename_i hfinite
            simp only [Mesh.isEmpty, Bool.or_eq_true, Array.isEmpty_iff, not_or] at hempty
            simp only [Bool.or_eq_true, decide_eq_true_eq, not_or, not_not] at hthree
            refine ⟨hempty.1, hempty.2, hthree.1, hthree.2, ?_, ?_⟩
            · intro i hi
              have := Array.find?_eq_none.mp hfind i hi
              simpa using this
            · intro x hx
              simp only [Array.any_eq_true', not_exists, not_and] at hfinite
              simpa using hfinite x hx
  · rintro ⟨hp, hi, hp3, hi3, hrange, hfinite⟩
    have hfind : m.indices.find? (m.vertexCount.toUInt32 ≤ ·) = none := by
      rw [Array.find?_eq_none]
      intro i him
      simpa using hrange i him
    have hany : ¬ m.positions.any (!Scalar.isFinite ·) = true := by
      simp only [Array.any_eq_true', not_exists, not_and]
      intro x hx
      simpa using hfinite x hx
    rw [if_neg (by simp [Mesh.isEmpty, hp, hi]), if_neg (by simp [hp3, hi3]), hfind]
    simp only
    rw [if_neg hany]

/-- In 32 bits there are never more vertices than there are. -/
lemma lt_of_lt_toUInt32 {i : UInt32} {n : Nat} (h : i < n.toUInt32) : i.toNat < n := by
  rw [UInt32.lt_iff_toNat_lt] at h
  exact Nat.lt_of_lt_of_le h (Nat.mod_le _ _)

/-- If the vertices can be counted in 32 bits, every index has its vertex. -/
lemma lt_toUInt32_iff {i : UInt32} {n : Nat} (hfits : n < UInt32.size) : i < n.toUInt32 ↔ i.toNat < n := by
  rw [UInt32.lt_iff_toNat_lt, Nat.toUInt32_eq, UInt32.toNat_ofNat_of_lt' hfits]

/-- A mesh with fewer vertices than 32 bits can count has no fault exactly if neither buffer is empty, both hold
groups of three, every index has its vertex and every position is finite. -/
lemma fault?_eq_none_iff_of_fits {entity : EntityId} {m : Mesh α} (hfits : m.vertexCount < UInt32.size) :
    fault? entity m = none ↔
      m.positions ≠ #[] ∧ m.indices ≠ #[] ∧ m.positions.size % 3 = 0 ∧ m.indices.size % 3 = 0 ∧
      (∀ i ∈ m.indices, i.toNat < m.vertexCount) ∧ ∀ x ∈ m.positions, Scalar.isFinite x = true := by
  simp only [fault?_eq_none_iff, lt_toUInt32_iff hfits]

/-- Completing the normals changes nothing else. -/
lemma completeNormals_eq (m : Mesh α) :
    (completeNormals m).positions = m.positions ∧ (completeNormals m).indices = m.indices := by
  unfold completeNormals
  split
  · exact ⟨rfl, rfl⟩
  · exact ⟨rfl, rfl⟩

/-- A geometry that was accepted has the digest of its content, whole vertices, and corners that are vertices, also
if the vertices are counted in 32 bits. -/
lemma Accepted.checked (hg : g.Accepted) :
    g.hash = Digest.hash64 g.contentBytes ∧ g.mesh.positions.size % 3 = 0 ∧
      ∀ i ∈ g.mesh.indices, i < g.vertexCount.toUInt32 := by
  obtain ⟨entity, kind, primitive, m, color, hm⟩ := hg
  unfold ofMesh at hm
  split at hm
  · cases hm
  · rename_i hfault
    obtain ⟨-, -, hp3, -, hrange, -⟩ := fault?_eq_none_iff.mp hfault
    obtain ⟨hpos, hidx⟩ := completeNormals_eq m
    cases hm
    refine ⟨?_, ?_, ?_⟩
    · simp only [contentBytes, Mesh.contentBytes, hpos, hidx]
    · simpa only [hpos] using hp3
    · simpa only [hidx, vertexCount, Mesh.vertexCount, hpos] using hrange

/-- The corners of a geometry that was accepted are vertices of it. -/
lemma Accepted.spec (hg : g.Accepted) :
    g.hash = Digest.hash64 g.contentBytes ∧ g.mesh.positions.size % 3 = 0 ∧
      ∀ i ∈ g.mesh.indices, i.toNat < g.vertexCount :=
  ⟨hg.checked.1, hg.checked.2.1, fun i hi => lt_of_lt_toUInt32 (hg.checked.2.2 i hi)⟩

/-- Without a collision, equal digests mean equal bytes. -/
lemma hash_eq_iff (hg : g.Accepted) (hh : h.Accepted) (hno : NoCollision g h) :
    g.hash = h.hash ↔ g.contentBytes = h.contentBytes := by
  rw [hg.spec.1, hh.spec.1]
  exact ⟨hno, fun hbytes => by rw [hbytes]⟩

/-- Equal bytes mean the same content, unless one geometry is shifted against the other. -/
theorem contentBytes_eq_iff_sameContent :
    g.contentBytes = h.contentBytes ↔ g.SameContent h ∨ g.Shifted h ∨ h.Shifted g := by
  rw [contentBytes, contentBytes, Mesh.contentBytes_eq_iff]
  constructor
  · rintro ⟨hprim, hwords⟩
    have same (hpos : g.mesh.positionBits = h.mesh.positionBits)
        (hidx : g.mesh.indices.toList = h.mesh.indices.toList) : g.SameContent h :=
      ⟨hprim, hpos, Array.toList_inj.mp hidx⟩
    obtain ⟨extra, hpos, hidx⟩ | ⟨extra, hpos, hidx⟩ := List.append_eq_append_iff.mp hwords
    · by_cases he : extra = []
      · subst he
        exact .inl (same (by simpa using hpos.symm) (by simpa using hidx))
      · exact .inr (.inl ⟨hprim, extra, he, hpos, hidx⟩)
    · by_cases he : extra = []
      · subst he
        exact .inl (same (by simpa using hpos) (by simpa using hidx.symm))
      · exact .inr (.inr ⟨hprim.symm, extra, he, hpos, hidx⟩)
  · rintro (hs | ⟨hprim, extra, -, hpos, hidx⟩ | ⟨hprim, extra, -, hpos, hidx⟩)
    · exact ⟨hs.primitive, by rw [Mesh.words, Mesh.words, hs.positions, hs.indices]⟩
    · exact ⟨hprim, by rw [Mesh.words, Mesh.words, hpos, hidx, List.append_assoc]⟩
    · exact ⟨hprim.symm, by rw [Mesh.words, Mesh.words, hpos, hidx, List.append_assoc]⟩

/-- A shifted geometry has other content. -/
lemma Shifted.not_sameContent (hs : g.Shifted h) : ¬ g.SameContent h := by
  rintro ⟨-, hpos, -⟩
  obtain ⟨-, extra, he, hpos', -⟩ := hs
  rw [hpos] at hpos'
  exact he (List.self_eq_append_right.mp hpos')

/-- The positions that a shifted geometry has more are, as whole numbers, less than the number of
vertices of the other one. -/
lemma Shifted.small (hs : g.Shifted h) (hg : g.Accepted) (hh : h.Accepted) :
    g.vertexCount < h.vertexCount ∧
      ∀ x ∈ h.mesh.positionBits.drop g.mesh.positionBits.length, x.toNat < g.vertexCount := by
  obtain ⟨-, extra, he, hpos, hidx⟩ := hs
  constructor
  · have hlen := congrArg List.length hpos
    have hpositive := List.length_pos_of_ne_nil he
    have hg3 := hg.spec.2.1
    have hh3 := hh.spec.2.1
    simp only [Mesh.positionBits, List.length_append, List.length_map, Array.length_toList] at hlen
    simp only [vertexCount, Mesh.vertexCount]
    omega
  · rw [hpos, List.drop_left]
    intro x hx
    apply hg.spec.2.2
    rw [← Array.mem_toList_iff, hidx]
    exact List.mem_append_left _ hx

end Geometry

end BuildingModel
