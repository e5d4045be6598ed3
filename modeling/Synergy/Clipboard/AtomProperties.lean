import Synergy.Clipboard.BitmapRoundTrip
import Synergy.Clipboard.XWindowsClipboard

/-! Properties that hold atoms, as they are read and written. -/
namespace Synergy
open Synergy.Lib

/-- The bytes of atoms in memory. -/
def atomBytes (d : Display) (atoms : List Atom) : Bytes := atoms.flatMap (littleEndian d.sizeofAtom)

section
variable {d : Display}

@[simp] theorem atomBytes_nil : atomBytes d [] = [] := rfl

@[simp] theorem atomBytes_cons (atom : Atom) (atoms : List Atom) :
    atomBytes d (atom :: atoms) = littleEndian d.sizeofAtom atom ++ atomBytes d atoms := rfl

@[simp] theorem atomBytes_append (atoms more : List Atom) :
    atomBytes d (atoms ++ more) = atomBytes d atoms ++ atomBytes d more :=
  List.flatMap_append

@[simp] theorem length_atomBytes (atoms : List Atom) : (atomBytes d atoms).length = atoms.length * d.sizeofAtom := by
  induction atoms with
  | nil => simp
  | cons atom atoms ih =>
    rw [atomBytes_cons, List.length_append, length_littleEndian, ih, List.length_cons]
    ring

/-- The bytes of whole atoms are those of some atoms. -/
theorem exists_atomBytes {n : Nat} {data : Bytes} (hlength : data.length = n * d.sizeofAtom) :
    ∃ atoms, atoms.length = n ∧ data = atomBytes d atoms ∧ ∀ atom ∈ atoms, atom < 256 ^ d.sizeofAtom := by
  induction n generalizing data with
  | zero =>
    rw [Nat.zero_mul] at hlength
    exact ⟨[], rfl, List.eq_nil_of_length_eq_zero hlength, fun _ h => nomatch h⟩
  | succ n ih =>
    rw [Nat.succ_mul] at hlength
    have htake : (data.take d.sizeofAtom).length = d.sizeofAtom := by
      rw [List.length_take]
      omega
    have hdrop : (data.drop d.sizeofAtom).length = n * d.sizeofAtom := by
      rw [List.length_drop]
      omega
    obtain ⟨atoms, hatoms, hrest, hsmall⟩ := ih hdrop
    refine ⟨ofLittleEndian (data.take d.sizeofAtom) :: atoms, by rw [List.length_cons, hatoms], ?_, ?_⟩
    · have hfirst := littleEndian_ofLittleEndian (data.take d.sizeofAtom)
      rw [htake] at hfirst
      rw [atomBytes_cons, hfirst, ← hrest, List.take_append_drop]
    · intro atom hatom
      rcases List.mem_cons.mp hatom with rfl | hatom
      · have hlt := ofLittleEndian_lt (data.take d.sizeofAtom)
        rwa [htake] at hlt
      · exact hsmall atom hatom

theorem fromLE_atomBytes {before behind : List Atom} {atom : Atom} (hatom : atom < 256 ^ d.sizeofAtom) :
    fromLE d.sizeofAtom (atomBytes d (before ++ atom :: behind)) (before.length * d.sizeofAtom) = .ok atom := by
  rw [atomBytes_append, atomBytes_cons, fromLE_append _ _ _ _ (length_atomBytes before), Nat.mod_eq_of_lt hatom]

theorem fromLE_behind (hsize : 0 < d.sizeofAtom) {atoms : List Atom} {i : Nat} (hi : atoms.length ≤ i) :
    fromLE d.sizeofAtom (atomBytes d atoms) (i * d.sizeofAtom) = .error .outside := by
  have hle := Nat.mul_le_mul_right d.sizeofAtom hi
  rw [fromLE, if_neg]
  rw [length_atomBytes]
  omega

theorem replaceAtomData_atomBytes (before behind : List Atom) (atom atom' : Atom) :
    XWindowsUtil.replaceAtomData d (atomBytes d (before ++ atom :: behind)) before.length atom' =
      atomBytes d (before ++ atom' :: behind) := by
  unfold XWindowsUtil.replaceAtomData
  have htake : (atomBytes d (before ++ atom :: behind)).take (before.length * d.sizeofAtom) = atomBytes d before := by
    rw [atomBytes_append, List.take_left' (length_atomBytes before)]
  have hdrop : (atomBytes d (before ++ atom :: behind)).drop (before.length * d.sizeofAtom + d.sizeofAtom) =
      atomBytes d behind := by
    rw [atomBytes_append, atomBytes_cons, ← List.append_assoc, List.drop_left']
    rw [List.length_append, length_atomBytes, length_littleEndian]
  rw [htake, hdrop, atomBytes_append, atomBytes_cons, List.append_assoc]

end

section
variable {α β : Type}

theorem chunks_short {size fuel : Nat} {l : List α} (hl : l.length ≤ size) : chunks size (fuel + 1) l = [l] :=
  if_pos hl

theorem chunks_flatten {size fuel : Nat} {l : List α} (hsize : 0 < size) (hfuel : l.length ≤ fuel) :
    (chunks size fuel l).flatten = l := by
  induction fuel generalizing l with
  | zero => rw [List.eq_nil_of_length_eq_zero (by omega : l.length = 0)]; rfl
  | succ fuel ih =>
    unfold chunks
    split_ifs with hle
    · simp
    · rw [List.flatten_cons, ih (by rw [List.length_drop]; omega), List.take_append_drop]

theorem flatMap_flatMap_chunks {size fuel : Nat} {l : List α} (hsize : 0 < size) (hfuel : l.length ≤ fuel)
    (f : α → List β) : (chunks size fuel l).flatMap (fun piece => piece.flatMap f) = l.flatMap f := by
  have hpieces (pieces : List (List α)) : pieces.flatMap (fun piece => piece.flatMap f) = pieces.flatten.flatMap f := by
    induction pieces with
    | nil => rfl
    | cons piece pieces ih => rw [List.flatMap_cons, List.flatten_cons, List.flatMap_append, ih]
  rw [hpieces, chunks_flatten hsize hfuel]

theorem length_flatMap_chunks {size fuel k : Nat} {l : List α} (hsize : 0 < size) (hfuel : l.length ≤ fuel)
    {f : List α → List β} (hf : ∀ piece, (f piece).length = k * piece.length) :
    ((chunks size fuel l).flatMap f).length = k * l.length := by
  have hpieces (pieces : List (List α)) : (pieces.flatMap f).length = k * pieces.flatten.length := by
    induction pieces with
    | nil => rfl
    | cons piece pieces ih =>
      rw [List.flatMap_cons, List.flatten_cons, List.length_append, List.length_append, ih, hf, Nat.mul_add]
  rw [hpieces, chunks_flatten hsize hfuel]

end

section
variable {d : Display}

/-- The atoms of a property. -/
def WindowProperty.atoms (p : WindowProperty) : List Atom := p.items.map UInt32.toNat

/-- What is converted of a property that has been read. -/
def readAtoms (d : Display) (p : WindowProperty) : Bytes :=
  XWindowsUtil.convertAtomProperty d (XWindowsUtil.getWindowProperty d p)

private theorem length_piece (h : d.Conforms) (piece : List UInt32) :
    ((piece.flatMap fun item => littleEndian (d.datumSize 32) item.toNat).take (32 / 8 * piece.length)).length =
      4 * piece.length := by
  have hsum : (piece.flatMap fun item => littleEndian (d.datumSize 32) item.toNat).length =
      piece.length * d.sizeofAtom := by
    have hatoms := length_atomBytes (d := d) (piece.map UInt32.toNat)
    rw [atomBytes, List.flatMap_map, List.length_map] at hatoms
    exact hatoms
  have hle : 4 * piece.length ≤ piece.length * d.sizeofAtom := by
    rw [Nat.mul_comm]
    exact Nat.mul_le_mul_left _ (by rcases h.sizeofAtom with hsize | hsize <;> omega)
  rw [List.length_take, hsum]
  omega

/-- Four bytes are read for every item. -/
theorem length_getWindowProperty (h : d.Conforms) {p : WindowProperty} (hformat : p.format = 32) :
    (XWindowsUtil.getWindowProperty d p).length = 4 * p.items.length := by
  have hmax := h.maxRequestSize
  unfold XWindowsUtil.getWindowProperty
  rw [hformat]
  exact length_flatMap_chunks (by omega) le_rfl (length_piece h)

/-- Atoms of four bytes are read as they are. -/
theorem readAtoms_four (h : d.Conforms) (hsize : d.sizeofAtom = 4) {p : WindowProperty} (hformat : p.format = 32) :
    readAtoms d p = atomBytes d p.atoms := by
  have hmax := h.maxRequestSize
  have hwhole (piece : List UInt32) :
      (piece.flatMap fun item => littleEndian (d.datumSize 32) item.toNat).take (32 / 8 * piece.length) =
        piece.flatMap fun item => littleEndian d.sizeofAtom item.toNat := by
    have hatoms := length_atomBytes (d := d) (piece.map UInt32.toNat)
    rw [atomBytes, List.flatMap_map, List.length_map, hsize] at hatoms
    refine List.take_of_length_le ?_
    change (piece.flatMap fun item => littleEndian d.sizeofAtom item.toNat).length ≤ _
    rw [hsize]
    omega
  unfold readAtoms XWindowsUtil.convertAtomProperty XWindowsUtil.getWindowProperty
  rw [if_neg (by rw [hsize]; simp), hformat]
  simp only [hwhole]
  rw [flatMap_flatMap_chunks (by omega) le_rfl, WindowProperty.atoms, atomBytes, List.flatMap_map]

/-- Of atoms of eight bytes only half as many are read as there are items. -/
theorem length_readAtoms_eight (h : d.Conforms) (hsize : d.sizeofAtom = 8) {p : WindowProperty}
    (hformat : p.format = 32) : (readAtoms d p).length = (p.items.length + 1) / 2 * d.sizeofAtom := by
  have hlength := length_getWindowProperty h hformat
  unfold readAtoms XWindowsUtil.convertAtomProperty
  rw [hlength, hsize]
  split_ifs with hodd
  · rw [List.length_append, hlength, length_littleEndian]
    omega
  · rw [hlength]
    omega

/-- Of three items the first two are read. -/
theorem readAtoms_three (h : d.Conforms) (hsize : d.sizeofAtom = 8) {p : WindowProperty} (hformat : p.format = 32)
    {target property last : UInt32} (hitems : p.items = [target, property, last]) :
    readAtoms d p = atomBytes d [target.toNat, property.toNat] := by
  have hmax := h.maxRequestSize
  have hdatum : d.datumSize 32 = 4 + 4 := hsize
  have hhigh : littleEndian 4 (property.toNat >>> (8 * 4)) = littleEndian 4 0 := by
    have hlt := property.toNat_lt
    rw [Nat.shiftRight_eq_div_pow, Nat.div_eq_of_lt (by omega)]
  have hread : XWindowsUtil.getWindowProperty d p = littleEndian 8 target.toNat ++ littleEndian 4 property.toNat := by
    unfold XWindowsUtil.getWindowProperty
    have hpiece : chunks (d.maxRequestSize * (32 / 32)) [target, property, last].length [target, property, last] =
        [[target, property, last]] := @chunks_short _ _ 2 _ (show 3 ≤ d.maxRequestSize * 1 by omega)
    rw [hformat, hitems, hdatum, hpiece]
    change ((littleEndian (4 + 4) target.toNat ++ (littleEndian (4 + 4) property.toNat ++
      (littleEndian (4 + 4) last.toNat ++ []))).take 12) ++ [] = _
    rw [littleEndian_append 4 4 property.toNat, List.append_nil, List.append_assoc, ← List.append_assoc,
      List.take_left' (by simp)]
  unfold readAtoms XWindowsUtil.convertAtomProperty
  rw [hread, hsize, if_pos (by simp), atomBytes_cons, atomBytes_cons, hsize, atomBytes_nil, List.append_nil,
    List.append_assoc, littleEndian_append 4 4 property.toNat, hhigh]

/-- The items of a piece of data. -/
private def decode (d : Display) (piece : Bytes) : List UInt32 :=
  (List.range (piece.length / d.sizeofAtom)).map fun i =>
    .ofNat (ofLittleEndian ((piece.drop (i * d.sizeofAtom)).take d.sizeofAtom))

private theorem decode_atomBytes (hsize : 0 < d.sizeofAtom) {atoms : List Atom}
    (hatoms : ∀ atom ∈ atoms, atom < 256 ^ d.sizeofAtom) : decode d (atomBytes d atoms) = atoms.map UInt32.ofNat := by
  unfold decode
  rw [length_atomBytes, Nat.mul_div_cancel _ hsize]
  induction atoms with
  | nil => rfl
  | cons atom atoms ih =>
    have hsmall := hatoms atom List.mem_cons_self
    have hfirst : ((atomBytes d (atom :: atoms)).drop (0 * d.sizeofAtom)).take d.sizeofAtom =
        littleEndian d.sizeofAtom atom := by
      rw [Nat.zero_mul, List.drop_zero, atomBytes_cons, List.take_left' (length_littleEndian _ _)]
    have hmore (i : Nat) : (atomBytes d (atom :: atoms)).drop ((i + 1) * d.sizeofAtom) =
        (atomBytes d atoms).drop (i * d.sizeofAtom) := by
      rw [atomBytes_cons, Nat.succ_mul, Nat.add_comm, ← List.drop_drop, List.drop_left' (length_littleEndian _ _)]
    rw [List.length_cons, List.range_succ_eq_map, List.map_cons, List.map_map, hfirst,
      ofLittleEndian_littleEndian, Nat.mod_eq_of_lt hsmall, List.map_cons,
      ← ih fun atom' hatom' => hatoms atom' (List.mem_cons_of_mem _ hatom')]
    congr 1
    refine List.map_congr_left fun i _ => ?_
    rw [Function.comp_apply, hmore]

private theorem flatMap_decode_chunks (hsize : 0 < d.sizeofAtom) {count fuel : Nat} (hcount : 0 < count)
    {atoms : List Atom} (hfuel : (atomBytes d atoms).length ≤ fuel)
    (hatoms : ∀ atom ∈ atoms, atom < 256 ^ d.sizeofAtom) :
    (chunks (d.sizeofAtom * count) fuel (atomBytes d atoms)).flatMap (decode d) = atoms.map UInt32.ofNat := by
  induction fuel generalizing atoms with
  | zero =>
    rw [length_atomBytes] at hfuel
    have hnone : atoms = [] := List.eq_nil_of_length_eq_zero (by
      by_contra hne
      have := Nat.mul_pos (Nat.pos_of_ne_zero hne) hsize
      omega)
    subst hnone
    rfl
  | succ fuel ih =>
    unfold chunks
    split_ifs with hle
    · rw [List.flatMap_cons, List.flatMap_nil, List.append_nil, decode_atomBytes hsize hatoms]
    · rw [length_atomBytes, Nat.mul_comm d.sizeofAtom] at hle
      have hlong : count ≤ atoms.length := by
        by_contra hshort
        exact hle (Nat.mul_le_mul_right _ (by omega))
      have hsplit := List.take_append_drop count atoms
      have hbytes : atomBytes d atoms = atomBytes d (atoms.take count) ++ atomBytes d (atoms.drop count) := by
        rw [← atomBytes_append, hsplit]
      have htake : (atomBytes d (atoms.take count)).length = d.sizeofAtom * count := by
        rw [length_atomBytes, List.length_take, Nat.min_eq_left hlong, Nat.mul_comm]
      rw [List.flatMap_cons, hbytes, List.take_left' htake, List.drop_left' htake,
        decode_atomBytes hsize fun atom hatom => hatoms atom (List.mem_of_mem_take hatom), ih ?_
          fun atom hatom => hatoms atom (List.mem_of_mem_drop hatom), ← List.map_append, hsplit]
      rw [hbytes, List.length_append, htake] at hfuel
      have := Nat.mul_pos hsize hcount
      omega

/-- Atoms of four bytes are written as they are. -/
theorem setWindowProperty_four (h : d.Conforms) (hsize : d.sizeofAtom = 4) {atoms : List Atom}
    (hatoms : ∀ atom ∈ atoms, atom < 2 ^ 32) (type : Atom) :
    (XWindowsUtil.setWindowProperty d (atomBytes d atoms) type 32).atoms = atoms := by
  have hmax := h.maxRequestSize
  have hitems : (XWindowsUtil.setWindowProperty d (atomBytes d atoms) type 32).items = atoms.map UInt32.ofNat := by
    have hsmall (atom : Atom) (hatom : atom ∈ atoms) : atom < 256 ^ d.sizeofAtom := by
      rw [hsize]
      exact hatoms atom hatom
    have hdecode := flatMap_decode_chunks (d := d) (by omega) (by omega : 0 < d.maxRequestSize) le_rfl hsmall
    rw [hsize] at hdecode
    exact hdecode
  rw [WindowProperty.atoms, hitems, List.map_map]
  refine (List.map_congr_left fun atom hatom => ?_).trans (List.map_id atoms)
  exact UInt32.toNat_ofNat_of_lt' (hatoms atom hatom)

/-- Few atoms of eight bytes are as many items. -/
theorem length_setWindowProperty_eight (h : d.Conforms) (hsize : d.sizeofAtom = 8) (target property type : Atom) :
    (XWindowsUtil.setWindowProperty d (atomBytes d [target, property]) type 32).items.length = 2 := by
  have hmax := h.maxRequestSize
  have hlength : (atomBytes d [target, property]).length = 15 + 1 := by
    rw [length_atomBytes, hsize]
    rfl
  unfold XWindowsUtil.setWindowProperty
  have hdatum : d.datumSize 32 = 8 := hsize
  rw [hlength, chunks_short (by omega), hdatum, List.flatMap_cons, List.flatMap_nil, List.append_nil, hlength]
  rfl

end

end Synergy
