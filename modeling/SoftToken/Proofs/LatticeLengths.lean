import SoftToken.MlDsa
import SoftToken.MlKem
import SoftToken.ParameterSet
import SoftToken.Proofs.Draws
import SoftToken.Proofs.Mask
import SoftToken.Proofs.SpongeOutput
/-!
# Lengths of lattice signatures and ciphertexts

Every step of the lattice schemes works on polynomials with all their coefficients, so that packed rows have the
lengths that the parameter set fixes. An ML-DSA signature always has the size of its set
(`MlDsa.length_sign`). A ciphertext of ML-KEM has it if the matrix of the key is sampled in full
(`MlKem.length_ciphertext`): sampling rejects numbers, and could run out of bytes.
-/

namespace SoftToken

/-- What two tables of parameter sets have for one set, if it holds of all their rows. -/
theorem ParameterSizes.of_lookup {α : Type} {R : α → ParameterSizes → Prop} {table : List (UInt64 × α)}
    {sizes : List (UInt64 × ParameterSizes)} (h : ∀ row ∈ table, ∀ s ∈ sizes.lookup row.1, R row.2 s) {set : UInt64}
    {a : α} {s : ParameterSizes} (ha : table.lookup set = some a) (hs : sizes.lookup set = some s) : R a s := by
  obtain ⟨before, after, rfl, -⟩ := List.lookup_eq_some_iff.1 ha
  exact h (set, a) (List.mem_append_right _ List.mem_cons_self) s hs

namespace Lattice

/-! ## Packed rows -/

@[simp] theorem length_digits (base count n : Nat) : (digits base count n).length = count := by
  induction count generalizing n with
  | zero => rfl
  | succ count ih => rw [digits, List.length_cons, ih]

@[simp] theorem length_unpack (bits count : Nat) (b : Bytes) : (unpack bits count b).length = count :=
  length_digits _ _ _

@[simp] theorem length_pieces (size count : Nat) (b : Bytes) : (pieces size count b).length = count := by
  induction count generalizing b with
  | zero => rfl
  | succ count ih => rw [pieces, List.length_cons, ih]

/-- A polynomial takes a byte for every eight bits of its coefficients. -/
theorem length_pack {bits : Nat} {f : Poly} (h : f.length = degree) : (pack bits f).length = 32 * bits := by
  rw [pack, Bytes.length_ofNatLE, h, degree]
  omega

theorem exists_of_mem_zipWith {α β γ : Type} {f : α → β → γ} {as : List α} {bs : List β} {c : γ}
    (h : c ∈ List.zipWith f as bs) : ∃ a ∈ as, ∃ b ∈ bs, f a b = c := by
  rw [← List.map_uncurry_zip_eq_zipWith] at h
  obtain ⟨⟨a, b⟩, hab, rfl⟩ := List.mem_map.1 h
  exact ⟨a, (List.of_mem_zip hab).1, b, (List.of_mem_zip hab).2, rfl⟩

/-! ## Polynomials -/

namespace Ring

variable (R : Ring)

@[simp] theorem length_add (f g : Poly) : (R.add f g).length = min f.length g.length := List.length_zipWith

@[simp] theorem length_sub (f g : Poly) : (R.sub f g).length = min f.length g.length := List.length_zipWith

@[simp] theorem length_mulConstants (f g : Poly) : (R.mulConstants f g).length = min f.length g.length :=
  List.length_zipWith

@[simp] theorem length_scale (c : Nat) (f : Poly) : (R.scale c f).length = f.length := List.length_map _

/-- Splitting keeps the number of coefficients, if it can be halved as often. -/
theorem length_split (depth k node : Nat) {f : Poly} (h : f.length = 2 ^ depth * k) :
    (R.split depth (2 ^ depth * k / 2) node f).length = 2 ^ depth * k := by
  induction depth generalizing node f with
  | zero => exact h
  | succ depth ih =>
    have hhalf : 2 ^ (depth + 1) * k / 2 = 2 ^ depth * k := by rw [Nat.pow_succ, Nat.mul_right_comm]; omega
    have hwhole : 2 ^ (depth + 1) * k = 2 * (2 ^ depth * k) := by rw [Nat.pow_succ, Nat.mul_right_comm, Nat.mul_comm]
    -- both remainders have half the coefficients
    have htake : (f.take (2 ^ depth * k)).length = 2 ^ depth * k := by rw [List.length_take]; omega
    have hdrop : (f.drop (2 ^ depth * k)).length = 2 ^ depth * k := by rw [List.length_drop]; omega
    rw [hhalf, split, List.length_append, ih, ih, hwhole, Nat.two_mul]
    · rw [length_sub, length_scale, htake, hdrop, Nat.min_self]
    · rw [length_add, length_scale, htake, hdrop, Nat.min_self]

theorem length_join (depth k node : Nat) {f : Poly} (h : f.length = 2 ^ depth * k) :
    (R.join depth (2 ^ depth * k / 2) node f).length = 2 ^ depth * k := by
  induction depth generalizing node f with
  | zero => exact h
  | succ depth ih =>
    have hhalf : 2 ^ (depth + 1) * k / 2 = 2 ^ depth * k := by rw [Nat.pow_succ, Nat.mul_right_comm]; omega
    have hwhole : 2 ^ (depth + 1) * k = 2 * (2 ^ depth * k) := by rw [Nat.pow_succ, Nat.mul_right_comm, Nat.mul_comm]
    have htake : (f.take (2 ^ depth * k)).length = 2 ^ depth * k := by rw [List.length_take]; omega
    have hdrop : (f.drop (2 ^ depth * k)).length = 2 ^ depth * k := by rw [List.length_drop]; omega
    rw [hhalf, join, List.length_append, length_add, length_scale, length_sub, ih _ htake, ih _ hdrop, Nat.min_self,
      hwhole, Nat.two_mul]

variable {R}

/-- The transform and its inverse keep polynomials whole. -/
theorem length_transform (hd : R.depth ≤ 8) {f : Poly} (h : f.length = degree) :
    (R.transform f).length = degree := by
  have hdegree : degree = 2 ^ R.depth * 2 ^ (8 - R.depth) := by rw [← Nat.pow_add, Nat.add_sub_cancel' hd]; rfl
  unfold transform
  rw [hdegree] at h ⊢
  exact R.length_split _ _ _ h

theorem length_restore (hd : R.depth ≤ 8) {f : Poly} (h : f.length = degree) : (R.restore f).length = degree := by
  have hdegree : degree = 2 ^ R.depth * 2 ^ (8 - R.depth) := by rw [← Nat.pow_add, Nat.add_sub_cancel' hd]; rfl
  unfold restore
  rw [length_scale]
  rw [hdegree] at h ⊢
  exact R.length_join _ _ _ h

/-- A product has two coefficients for each number by which pairs are reduced. -/
theorem length_mulPairs {cs : List Nat} {f g : Poly} (hf : f.length = 2 * cs.length) (hg : g.length = 2 * cs.length) :
    (R.mulPairs cs f g).length = 2 * cs.length := by
  induction cs generalizing f g with
  | nil => rfl
  | cons c cs ih =>
    match f, g, hf, hg with
    | a0 :: a1 :: f, b0 :: b1 :: g, hf, hg =>
      simp only [List.length_cons] at hf hg ⊢
      rw [mulPairs, List.length_cons, List.length_cons, ih (by omega) (by omega)]
      omega

theorem length_foldl_add {fs : List Poly} {f : Poly} (h : f.length = degree) (hs : ∀ g ∈ fs, g.length = degree) :
    (fs.foldl R.add f).length = degree := by
  induction fs generalizing f with
  | nil => exact h
  | cons g fs ih =>
    refine ih ?_ fun g' hg' => hs g' (List.mem_cons_of_mem _ hg')
    rw [length_add, h, hs g List.mem_cons_self, Nat.min_self]

/-- A sum of products of whole polynomials is whole. -/
theorem length_dot {mul : Poly → Poly → Poly} {fs gs : List Poly}
    (hmul : ∀ f g, f.length = degree → g.length = degree → (mul f g).length = degree)
    (hf : ∀ f ∈ fs, f.length = degree) (hg : ∀ g ∈ gs, g.length = degree) : (R.dot mul fs gs).length = degree := by
  refine length_foldl_add List.length_replicate fun p hp => ?_
  obtain ⟨f, hfm, g, hgm, rfl⟩ := exists_of_mem_zipWith hp
  exact hmul f g (hf f hfm) (hg g hgm)

end Ring
end Lattice

open SoftToken.Lattice

/-! ## ML-DSA -/

namespace MlDsa

variable {P : Parameters}

@[simp] theorem length_extend (input : Bytes) (len : Nat) : (extend input len).length = len :=
  Keccak.size_sponge (by decide) (by decide) _ _ _

@[simp] theorem length_unpackBelow (bits top : Nat) (b : Bytes) : (unpackBelow bits top b).length = degree := by
  rw [unpackBelow, List.length_map, length_unpack]

theorem length_packBelow {bits top : Nat} {f : Poly} (h : f.length = degree) :
    (packBelow bits top f).length = 32 * bits :=
  length_pack (by rw [List.length_map, h])

theorem size_placeSigns (positions : List (Nat × Bool)) (b : Bytes) (f : Array Nat) :
    (placeSigns positions b f).size = f.size := by
  induction positions generalizing b f with
  | nil => rfl
  | cons p positions ih =>
    obtain ⟨i, minus⟩ := p
    rw [placeSigns]
    split
    · rfl
    · rw [ih, Array.size_setIfInBounds, Array.size_setIfInBounds]

theorem length_challenge (P : Parameters) (seed : Bytes) : (challenge P seed).length = degree := by
  unfold challenge
  rw [Array.length_toList, size_placeSigns, Array.size_replicate]

theorem length_transform {f : Poly} (h : f.length = degree) : (ring.transform f).length = degree :=
  Ring.length_transform (Nat.le_refl 8) h

theorem length_restore {f : Poly} (h : f.length = degree) : (ring.restore f).length = degree :=
  Ring.length_restore (Nat.le_refl 8) h

/-- A polynomial has as many hint positions as hints. -/
theorem length_hintPositions (f : List Bool) : (hintPositions f).length = f.countP id := by
  have hsome : (fun p : Bool × Nat => (if p.1 then some (UInt8.ofNat p.2) else none : Option UInt8).isSome) =
      id ∘ Prod.fst := by
    funext p
    cases hp : p.1 <;> simp [hp]
  unfold hintPositions
  rw [List.length_filterMap_eq_countP, hsome, ← List.countP_map, List.zipIdx_map_fst]

theorem length_flatten_hintPositions (hints : List (List Bool)) :
    (hints.map hintPositions).flatten.length = hints.flatten.countP id := by
  rw [List.length_flatten, List.countP_flatten, List.map_map]
  exact congrArg List.sum (List.map_congr_left fun f _ => length_hintPositions f)

/-- Packed hints leave room for the largest number of them. -/
theorem length_packHints {hints : List (List Bool)} (h : hints.flatten.countP id ≤ P.maxHints) :
    (packHints P hints).length = P.maxHints + P.rows := by
  unfold packHints
  simp only [List.length_append, Bytes.length_zeros, List.length_map, List.length_range,
    length_flatten_hintPositions]
  omega

/-- The length of a signature: a challenge seed, the packed answer and the packed hints. -/
def Parameters.signatureSize (P : Parameters) : Nat :=
  P.challengeSize + P.columns * P.maskSize + (P.maxHints + P.rows)

theorem length_attempt {k : PrivateKey} {digest maskSeed s : Bytes} {start : Nat}
    (hcount : k.secret1.length = P.columns) (hwhole : ∀ f ∈ k.secret1, f.length = degree)
    (h : attempt? P k digest maskSeed start = some s) : s.length = P.signatureSize := by
  unfold attempt? at h
  simp only at h
  split at h
  · cases h
  split at h
  · cases h
  split at h
  · cases h
  next hhints =>
    cases h
    -- an answer adds a mask to a multiple of the secret, polynomial by polynomial
    have hz : ∀ c : Poly, c.length = degree → ∀ f ∈ List.zipWith ring.add (mask P maskSeed start)
        (k.secret1.map fun f => ring.restore (ring.mulConstants c f)), f.length = degree := by
      intro c hc f hf
      obtain ⟨y, hy, f', hf', rfl⟩ := exists_of_mem_zipWith hf
      obtain ⟨r, -, rfl⟩ := List.mem_map.1 hy
      obtain ⟨g, hg, rfl⟩ := List.mem_map.1 hf'
      have hprod : (ring.mulConstants c g).length = degree := by
        rw [Ring.length_mulConstants, hc, hwhole g hg, Nat.min_self]
      rw [Ring.length_add, length_unpackBelow, length_restore hprod, Nat.min_self]
    have hc := length_transform (length_challenge P
      (extend (digest ++ packHigh P ((apply k.matrix ((mask P maskSeed start).map ring.transform)).map ring.restore))
        P.challengeSize))
    have hle : ¬ decide (P.maxHints < _) = true := fun hlt => hhints (by rw [hlt, Bool.or_true])
    rw [decide_eq_true_eq, Nat.not_lt] at hle
    rw [List.length_append, List.length_append, length_extend, length_packHints hle,
      Bytes.length_flatMap fun f hf => length_packBelow (hz _ hc f hf), List.length_zipWith, List.length_map, hcount]
    unfold Parameters.signatureSize Parameters.maskSize
    simp [mask]

theorem length_firstAttempt {k : PrivateKey} {digest maskSeed s : Bytes} {fuel start : Nat}
    (hcount : k.secret1.length = P.columns) (hwhole : ∀ f ∈ k.secret1, f.length = degree)
    (h : firstAttempt? P k digest maskSeed fuel start = some s) : s.length = P.signatureSize := by
  induction fuel generalizing start with
  | zero => cases h
  | succ fuel ih =>
    rw [firstAttempt?] at h
    split at h
    · next hs => cases h; exact length_attempt hcount hwhole hs
    · exact ih h

/-- A signature has one length, whatever is signed with which key. -/
theorem length_sign {key message random s : Bytes} (h : sign P key message random = .ok s) :
    s.length = P.signatureSize := by
  unfold sign at h
  simp only at h
  split at h
  · next hs =>
    cases h
    refine length_firstAttempt ?_ ?_ hs
    · simp [readPrivate]
    · intro f hf
      obtain ⟨p, -, rfl⟩ := List.mem_map.1 hf
      exact length_transform (length_unpackBelow _ _ _)
  · cases h

/-- The tables of the parameter sets agree on the size of a signature. -/
theorem signatureSize_eq {set : UInt64} {sizes : ParameterSizes} (hP : parameters? set = some P)
    (hs : ParameterFamily.mlDsa.sizes? set = some sizes) : P.signatureSize = sizes.output :=
  ParameterSizes.of_lookup (R := fun P s => P.signatureSize = s.output) (by decide) hP hs

end MlDsa

/-! ## ML-KEM -/

namespace MlKem

variable {P : Parameters}

/-- The seed of a matrix whose entries are all sampled in full. -/
def SamplesInFull (P : Parameters) (seed : Bytes) : Prop :=
  ∀ i < P.rank, ∀ j < P.rank, (matrixEntry seed i j).length = degree

/-- An entry of the matrix, from the list of the bytes it is sampled from. -/
theorem matrixEntry_eq (seed : Bytes) (i j : Nat) :
    matrixEntry seed i j = (acceptPairs ((Keccak.output 168 5 (Keccak.absorbAll 168 0x1f
      (Bytes.pack (seed ++ [UInt8.ofNat i, UInt8.ofNat j])))).take sampleBytes)).take degree := by
  unfold matrixEntry Keccak.shake128
  simp only
  rw [Keccak.ofArray_sponge]
  rfl

theorem length_packCompressed {bits : Nat} {f : Poly} (h : f.length = degree) :
    (packCompressed bits f).length = 32 * bits :=
  length_pack (by rw [List.length_map, h])

@[simp] theorem length_noisePoly (width : Nat) (seed : Bytes) (index : Nat) :
    (noisePoly width seed index).length = degree := by
  rw [noisePoly, List.length_map, length_unpack]

theorem length_mul {f g : Poly} (hf : f.length = degree) (hg : g.length = degree) : (mul f g).length = degree := by
  have hroots : 2 * pairRoots.length = degree := by simp [pairRoots, degree]
  unfold mul
  rw [← hroots] at hf hg ⊢
  exact Ring.length_mulPairs hf hg

theorem length_transform {f : Poly} (h : f.length = degree) : (ring.transform f).length = degree :=
  Ring.length_transform (by decide : 7 ≤ 8) h

theorem length_restore {f : Poly} (h : f.length = degree) : (ring.restore f).length = degree :=
  Ring.length_restore (by decide : 7 ≤ 8) h

/-- The length of a ciphertext: the packed row and the packed last polynomial. -/
def Parameters.ciphertextSize (P : Parameters) : Nat := P.rank * (32 * P.rowBits) + 32 * P.lastBits

theorem length_encryptMessage {row : List Poly} {seed : Bytes} (hrow : ∀ f ∈ row, f.length = degree)
    (hseed : SamplesInFull P seed) (message noiseSeed : Bytes) :
    (encryptMessage P row seed message noiseSeed).length = P.ciphertextSize := by
  have hsecret : ∀ f ∈ (List.range P.rank).map fun i => ring.transform (noisePoly P.secretNoise noiseSeed i),
      f.length = degree := by
    intro f hf
    obtain ⟨i, -, rfl⟩ := List.mem_map.1 hf
    exact length_transform (length_noisePoly _ _ _)
  -- an equation is a product with the secret row, restored and made noisy
  have hequation : ∀ fs : List Poly, (∀ f ∈ fs, f.length = degree) → ∀ width index,
      (ring.add (ring.restore (ring.dot mul fs ((List.range P.rank).map fun i =>
        ring.transform (noisePoly P.secretNoise noiseSeed i)))) (noisePoly width noiseSeed index)).length = degree := by
    intro fs hfs width index
    rw [Ring.length_add, length_restore (Ring.length_dot (fun _ _ => length_mul) hfs hsecret), length_noisePoly,
      Nat.min_self]
  unfold encryptMessage
  simp only
  rw [List.length_append, @Bytes.length_flatMap _ _ _ (32 * P.rowBits), length_packCompressed, List.length_map,
    List.length_range]
  · rfl
  · rw [Ring.length_add, hequation row hrow, List.length_map, length_unpack, Nat.min_self]
  · intro f hf
    obtain ⟨i, hi, rfl⟩ := List.mem_map.1 hf
    refine length_packCompressed (hequation _ ?_ _ _)
    intro g hg
    obtain ⟨j, hj, rfl⟩ := List.mem_map.1 hg
    exact hseed i (List.mem_range.1 hi) j (List.mem_range.1 hj)

theorem length_of_readRow {rank : Nat} {b : Bytes} {row : List Poly} (h : readRow? rank b = some row) :
    ∀ f ∈ row, f.length = degree := by
  unfold readRow? at h
  simp only at h
  split at h
  · cases h
    intro f hf
    obtain ⟨p, -, rfl⟩ := List.mem_map.1 hf
    exact length_unpack _ _ _
  · cases h

/-- The ciphertext for a key whose matrix is sampled in full has the size of the parameter set. -/
theorem length_ciphertext {key secret data : Bytes} {t t' : RandomSource} (hseed : SamplesInFull P (key.drop P.rowSize))
    (h : (encapsulate P key).on t = (.ok (secret, data), t')) : data.length = P.ciphertextSize := by
  obtain ⟨_, -, h⟩ := Draw.bind_lift_ok.1 h
  obtain ⟨message, t₁, -, h⟩ := Draw.bind_ok.1 h
  obtain ⟨h, -⟩ := Draw.lift_ok.1 h
  unfold encapsulateMessage at h
  obtain ⟨⟨row, seed⟩, hread, h⟩ := Except.bind_ok.1 h
  unfold readPublic at hread
  split at hread
  · next hrow =>
    cases hread
    -- the derived pair is generalized, so that nothing unfolds the sponge below it
    generalize deriveSecret message (keyDigest key) = derived at h
    obtain ⟨shared, noiseSeed⟩ := derived
    cases h
    exact length_encryptMessage (length_of_readRow hrow) hseed message noiseSeed
  · cases hread

theorem ciphertextSize_eq {set : UInt64} {sizes : ParameterSizes} (hP : parameters? set = some P)
    (hs : ParameterFamily.mlKem.sizes? set = some sizes) : P.ciphertextSize = sizes.output :=
  ParameterSizes.of_lookup (R := fun P s => P.ciphertextSize = s.output) (by decide) hP hs

end MlKem
end SoftToken
