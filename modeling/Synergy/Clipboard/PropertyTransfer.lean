import Synergy.Clipboard.AtomProperties

/-! The transfer of a property of a window through the X server: the requests that write it piece by piece, those that
read it by offset and length, and the announcement of a transfer in increments. -/
namespace Synergy
open Synergy.Lib

/-- A connection, with the longest request in bytes that it takes. -/
structure Connection extends Display where
  largestRequest : Nat

/-- The items of data in memory, of which 32 bits are sent at most. -/
def itemsOf (size count : Nat) (data : Bytes) : List UInt32 :=
  (List.range count).map fun i => .ofNat (ofLittleEndian ((data.drop (i * size)).take size))

/-- The length of a request that changes a property, with its data padded to four bytes. -/
def requestLength (format count : Nat) : Nat := 24 + (count * (format / 8) + 3) / 4 * 4

/-- What one request returns of a property. -/
structure PropertyPart where
  type : Atom
  format : Nat
  items : List UInt32
  bytesLeft : Nat

/-- The part of a property from an offset on, both in units of four bytes. -/
def XGetWindowProperty (p : Option WindowProperty) (offset length : Nat) : Option PropertyPart :=
  match p with
  | none => none
  | some p =>
    let size := p.items.length * (p.format / 8)
    if size < 4 * offset then none
    else
      let part := min (size - 4 * offset) (4 * length)
      some
        { type := p.type
          format := p.format
          items := (p.items.drop (4 * offset / (p.format / 8))).take (part / (p.format / 8))
          bytesLeft := size - 4 * offset - part }

namespace Connection
variable (c : Connection)

/-- The property after a request that is not refused. -/
def XChangeProperty (p : Option WindowProperty) (type : Atom) (format : Nat) (append : Bool) (data : Bytes)
    (count : Nat) : Option WindowProperty :=
  if type = noAtom ∨ c.largestRequest < requestLength format count then none
  else
    match append, p with
    | true, some old =>
      if old.type = type ∧ old.format = format then
        some { old with items := old.items ++ itemsOf (c.datumSize format) count data }
      else none
    | _, _ => some ⟨type, format, itemsOf (c.datumSize format) count data⟩

/-- The pieces behind the first one. `noticed` is whether an error is known before the next request is made. -/
def appendChunks (noticed : Bool) (type : Atom) (format : Nat) : Nat → Bytes → Option WindowProperty →
    Option WindowProperty
  | 0, _, p => p
  | fuel + 1, data, p =>
    if data = [] then p
    else
      let chunkSize := min data.length (4 * c.maxRequestSize)
      match c.XChangeProperty p type format true data (chunkSize / c.datumSize format) with
      | some p => appendChunks noticed type format fuel (data.drop chunkSize) (some p)
      | none => if noticed then p else appendChunks noticed type format fuel (data.drop chunkSize) p

def setWindowProperty (noticed : Bool) (p : Option WindowProperty) (data : Bytes) (type : Atom) (format : Nat) :
    Option WindowProperty :=
  let chunkSize := min data.length (4 * c.maxRequestSize)
  match c.XChangeProperty p type format false data (chunkSize / c.datumSize format) with
  | some p => c.appendChunks noticed type format data.length (data.drop chunkSize) (some p)
  | none => if noticed then p else c.appendChunks noticed type format data.length (data.drop chunkSize) p

/-- The parts from an offset on, as long as bytes are left. -/
def readParts (p : Option WindowProperty) : Nat → Nat → Bytes → Option (Bytes × Atom × Nat)
  | 0, _, _ => none
  | fuel + 1, offset, data =>
    match XGetWindowProperty p offset c.maxRequestSize with
    | none => none
    | some part =>
      let numItems := part.items.length
      let (numBytes, offset) :=
        if part.format = 16 then (2 * numItems, offset + numItems / 2)
        else if part.format = 32 then (4 * numItems, offset + numItems)
        else (numItems, offset + numItems / 4)
      let rawData := part.items.flatMap fun item => littleEndian (c.datumSize part.format) item.toNat
      let data := data ++ rawData.take numBytes
      if part.bytesLeft = 0 then some (data, part.type, part.format) else readParts p fuel offset data

/-- Appends the bytes of a property to data, and says of what type and format it is. -/
def getWindowProperty (p : Option WindowProperty) (data : Bytes) : Option (Bytes × Atom × Nat) :=
  c.readParts p ((p.map (·.items.length)).getD 0 + 1) 0 data

end Connection

/-- A format that the X server knows. -/
def KnownFormat (format : Nat) : Prop := format = 8 ∨ format = 16 ∨ format = 32

section
variable {c : Connection}

/-- A piece of a property as it is read. -/
def readPiece (d : Display) (format : Nat) (piece : List UInt32) : Bytes :=
  (piece.flatMap fun item => littleEndian (d.datumSize format) item.toNat).take (format / 8 * piece.length)

/-- A request from an item on returns as many items as the reading has pieces of. -/
theorem XGetWindowProperty_part {p : WindowProperty} (hformat : KnownFormat p.format) {offset k : Nat}
    (hk : k * (p.format / 8) = 4 * offset) (hle : k ≤ p.items.length) (length : Nat) :
    ∃ left, XGetWindowProperty (some p) offset length =
        some ⟨p.type, p.format, (p.items.drop k).take (length * (32 / p.format)), left⟩ ∧
      (left = 0 ↔ (p.items.drop k).length ≤ length * (32 / p.format)) := by
  rcases p with ⟨type, format, items⟩
  dsimp only at hformat hk hle
  refine ⟨items.length * (format / 8) - 4 * offset - min (items.length * (format / 8) - 4 * offset) (4 * length),
      ?_, ?_⟩
  · have hinside : ¬items.length * (format / 8) < 4 * offset := by
      rw [← hk, Nat.not_lt]
      exact Nat.mul_le_mul_right _ hle
    have hdrop : 4 * offset / (format / 8) = k := by
      rw [← hk]
      exact Nat.mul_div_cancel _ (by rcases hformat with rfl | rfl | rfl <;> decide)
    have htake : (items.drop k).take (min (items.length * (format / 8) - 4 * offset) (4 * length) / (format / 8)) =
        (items.drop k).take (length * (32 / format)) := by
      rw [List.take_eq_take_iff, List.length_drop]
      rcases hformat with rfl | rfl | rfl <;> omega
    unfold XGetWindowProperty
    dsimp only
    rw [if_neg hinside, hdrop, htake]
  · dsimp only
    rw [List.length_drop]
    rcases hformat with rfl | rfl | rfl <;> omega

/-- How many bytes are taken of so many items, and where the next part begins. -/
theorem advance_items {format : Nat} (hformat : KnownFormat format) (numItems offset : Nat) :
    ∃ next, (if format = 16 then (2 * numItems, offset + numItems / 2)
      else if format = 32 then (4 * numItems, offset + numItems)
      else (numItems, offset + numItems / 4)) = (format / 8 * numItems, next) ∧
      ∀ length, numItems = length * (32 / format) → next = offset + length := by
  rcases hformat with rfl | rfl | rfl
  · exact ⟨_, by rw [if_neg (by decide), if_neg (by decide), Nat.one_mul], fun length h => by omega⟩
  · exact ⟨_, by rw [if_pos rfl], fun length h => by omega⟩
  · exact ⟨_, by rw [if_neg (by decide), if_pos rfl], fun length h => by omega⟩

theorem readParts_chunks {p : WindowProperty} (hformat : KnownFormat p.format) (hmax : 0 < c.maxRequestSize)
    {fuel offset k : Nat} (hk : k * (p.format / 8) = 4 * offset) (hle : k ≤ p.items.length)
    (hfuel : p.items.length < k + fuel) (data : Bytes) :
    c.readParts (some p) fuel offset data =
      some (data ++ (chunks (c.maxRequestSize * (32 / p.format)) fuel (p.items.drop k)).flatMap
        (readPiece c.toDisplay p.format), p.type, p.format) := by
  induction fuel generalizing offset k data with
  | zero => omega
  | succ fuel ih =>
    obtain ⟨left, hpart, hleft⟩ := XGetWindowProperty_part hformat hk hle c.maxRequestSize
    rw [Connection.readParts, hpart, chunks]
    dsimp only
    obtain ⟨next, hadvance, hnext⟩ := advance_items hformat
      ((p.items.drop k).take (c.maxRequestSize * (32 / p.format))).length offset
    rw [hadvance]
    dsimp only
    by_cases hlast : (p.items.drop k).length ≤ c.maxRequestSize * (32 / p.format)
    · rw [if_pos (hleft.mpr hlast), if_pos hlast, List.take_of_length_le hlast, List.flatMap_cons, List.flatMap_nil,
        List.append_nil]
      rfl
    · have hsize : ((p.items.drop k).take (c.maxRequestSize * (32 / p.format))).length =
          c.maxRequestSize * (32 / p.format) := List.length_take_of_le (by omega)
      have hpos : 0 < c.maxRequestSize * (32 / p.format) :=
        Nat.mul_pos hmax (by rcases hformat with hf | hf | hf <;> rw [hf] <;> decide)
      rw [List.length_drop] at hlast
      have hon : (k + c.maxRequestSize * (32 / p.format)) * (p.format / 8) = 4 * next := by
        rw [hnext _ hsize, Nat.add_mul, hk, Nat.mul_add]
        congr 1
        rcases hformat with hf | hf | hf <;> rw [hf] <;> omega
      rw [if_neg (mt hleft.mp (by rw [List.length_drop]; exact hlast)), if_neg (by rw [List.length_drop]; exact hlast),
        ih hon (by omega) (by omega), List.flatMap_cons, List.drop_drop, List.append_assoc]
      rfl

theorem flatMap_chunks_fuel {α β : Type} {size fuel more : Nat} {l : List α} {f : List α → List β} (hnil : f [] = [])
    (hsize : 0 < size) (hfuel : l.length ≤ fuel) :
    (chunks size (fuel + more) l).flatMap f = (chunks size fuel l).flatMap f := by
  induction fuel generalizing l with
  | zero =>
    obtain rfl := List.eq_nil_of_length_eq_zero (Nat.le_zero.mp hfuel)
    cases more with
    | zero => rfl
    | succ more =>
      rw [Nat.zero_add, chunks_short (Nat.zero_le _), List.flatMap_cons, hnil]
      rfl
  | succ fuel ih =>
    rw [Nat.add_right_comm, chunks, chunks]
    split
    · rfl
    · rw [List.flatMap_cons, List.flatMap_cons, ih]
      rw [List.length_drop]
      omega

theorem flatMap_chunks_nil {α β : Type} {f : List α → List β} (hnil : f [] = []) (size fuel : Nat) :
    (chunks size fuel []).flatMap f = [] := by
  cases fuel with
  | zero => rfl
  | succ fuel => rw [chunks_short (Nat.zero_le _), List.flatMap_cons, hnil, List.flatMap_nil, List.append_nil]

/-- What the requests return is what the reading gives. -/
theorem getWindowProperty_chunks {p : WindowProperty} (hformat : KnownFormat p.format) (hmax : 0 < c.maxRequestSize)
    (data : Bytes) : c.getWindowProperty (some p) data =
      some (data ++ XWindowsUtil.getWindowProperty c.toDisplay p, p.type, p.format) := by
  have hpos : 0 < c.maxRequestSize * (32 / p.format) :=
    Nat.mul_pos hmax (by rcases hformat with hf | hf | hf <;> rw [hf] <;> decide)
  have hread : c.readParts (some p) (p.items.length + 1) 0 data =
      some (data ++ (chunks (c.maxRequestSize * (32 / p.format)) (p.items.length + 1) (p.items.drop 0)).flatMap
        (readPiece c.toDisplay p.format), p.type, p.format) :=
    readParts_chunks hformat hmax (Nat.zero_mul _) (Nat.zero_le _) (by omega) data
  rw [List.drop_zero, flatMap_chunks_fuel (by simp [readPiece]) hpos le_rfl] at hread
  exact hread

/-- The items of a piece are those at the beginning of the data. -/
theorem itemsOf_take {size count length : Nat} (h : count * size ≤ length) (data : Bytes) :
    itemsOf size count (data.take length) = itemsOf size count data := by
  refine List.map_congr_left fun i hi => ?_
  have hlt := List.mem_range.mp hi
  have hle : i * size + size ≤ count * size := by
    rw [← Nat.succ_mul]
    exact Nat.mul_le_mul_right _ hlt
  rw [List.drop_take, List.take_take, Nat.min_eq_left (by omega)]

/-- No request of a transfer is refused. -/
def Sendable (c : Connection) (type : Atom) (format size : Nat) : Prop :=
  type ≠ noAtom ∧ requestLength format (min size (4 * c.maxRequestSize) / c.datumSize format) ≤ c.largestRequest

theorem Sendable.less {type : Atom} {format size size' : Nat} (h : Sendable c type format size) (hle : size' ≤ size) :
    Sendable c type format size' := by
  refine ⟨h.1, le_trans ?_ h.2⟩
  have hcount : min size' (4 * c.maxRequestSize) / c.datumSize format ≤
      min size (4 * c.maxRequestSize) / c.datumSize format := Nat.div_le_div_right (by omega)
  have hbytes := Nat.mul_le_mul_right (format / 8) hcount
  have hwords := Nat.div_le_div_right (Nat.add_le_add_right hbytes 3) (c := 4)
  exact Nat.add_le_add_left (Nat.mul_le_mul_right 4 hwords) 24

/-- The items of a piece that is written. -/
def writePiece (d : Display) (format : Nat) (piece : Bytes) : List UInt32 :=
  itemsOf (d.datumSize format) (piece.length / d.datumSize format) piece

theorem writePiece_take (d : Display) (format size : Nat) (data : Bytes) :
    itemsOf (d.datumSize format) (min data.length size / d.datumSize format) data =
      writePiece d format (data.take size) := by
  have hlength : (data.take size).length = min data.length size := by rw [List.length_take, Nat.min_comm]
  rw [writePiece, itemsOf_take, hlength]
  rw [hlength]
  exact (Nat.div_mul_le_self _ _).trans (Nat.min_le_right _ _)

theorem writePiece_nil (d : Display) (format : Nat) : writePiece d format [] = [] := by
  rw [writePiece, List.length_nil, Nat.zero_div]
  rfl

theorem appendChunks_chunks {noticed : Bool} {type : Atom} {format fuel : Nat} {data : Bytes}
    (hmax : 0 < c.maxRequestSize) (hsend : Sendable c type format data.length) (hfuel : data.length ≤ fuel)
    (items : List UInt32) : c.appendChunks noticed type format fuel data (some ⟨type, format, items⟩) =
      some ⟨type, format,
        items ++ (chunks (4 * c.maxRequestSize) fuel data).flatMap (writePiece c.toDisplay format)⟩ := by
  induction fuel generalizing data items with
  | zero =>
    rw [chunks, List.flatMap_nil, List.append_nil]
    rfl
  | succ fuel ih =>
    by_cases hempty : data = []
    · subst hempty
      rw [Connection.appendChunks, if_pos rfl, flatMap_chunks_nil (writePiece_nil _ _), List.append_nil]
    · rw [Connection.appendChunks, chunks]
      have hlong := List.length_pos_iff.mpr hempty
      have hchange : c.XChangeProperty (some ⟨type, format, items⟩) type format true data
          (min data.length (4 * c.maxRequestSize) / c.datumSize format) =
            some ⟨type, format, items ++ writePiece c.toDisplay format (data.take (4 * c.maxRequestSize))⟩ := by
        rw [Connection.XChangeProperty, if_neg (not_or.mpr ⟨hsend.1, Nat.not_lt.mpr hsend.2⟩), writePiece_take]
        exact if_pos ⟨rfl, rfl⟩
      have hrest : (data.drop (min data.length (4 * c.maxRequestSize))).length ≤ fuel := by
        rw [List.length_drop]
        omega
      rw [if_neg hempty]
      dsimp only
      rw [hchange]
      dsimp only
      rw [ih (hsend.less (by rw [List.length_drop]; omega)) hrest]
      split
      next hle =>
        rw [List.take_of_length_le hle, Nat.min_eq_left hle, List.drop_length, List.flatMap_cons, List.flatMap_nil,
          List.append_nil, flatMap_chunks_nil (writePiece_nil _ _), List.append_nil]
      next hle =>
        rw [Nat.min_eq_right (by omega), List.flatMap_cons, List.append_assoc]

/-- What the requests write is what the writing gives, unless one of them is refused. -/
theorem setWindowProperty_chunks {noticed : Bool} {type : Atom} {format : Nat} {data : Bytes}
    (hmax : 0 < c.maxRequestSize) (hsend : Sendable c type format data.length) (p : Option WindowProperty) :
    c.setWindowProperty noticed p data type format =
      some (XWindowsUtil.setWindowProperty c.toDisplay data type format) := by
  have hchange : c.XChangeProperty p type format false data
      (min data.length (4 * c.maxRequestSize) / c.datumSize format) =
        some ⟨type, format, writePiece c.toDisplay format (data.take (4 * c.maxRequestSize))⟩ := by
    rw [Connection.XChangeProperty, if_neg (not_or.mpr ⟨hsend.1, Nat.not_lt.mpr hsend.2⟩), writePiece_take]
    exact fun _ hfalse _ => Bool.false_ne_true hfalse
  have hrest : (data.drop (min data.length (4 * c.maxRequestSize))).length ≤ data.length := by
    rw [List.length_drop]
    omega
  rw [Connection.setWindowProperty, hchange]
  dsimp only
  rw [appendChunks_chunks hmax (hsend.less hrest) hrest]
  have hset : XWindowsUtil.setWindowProperty c.toDisplay data type format =
      ⟨type, format, (chunks (4 * c.maxRequestSize) data.length data).flatMap (writePiece c.toDisplay format)⟩ := rfl
  have hmore : (chunks (4 * c.maxRequestSize) (data.length + 1) data).flatMap (writePiece c.toDisplay format) =
      (chunks (4 * c.maxRequestSize) data.length data).flatMap (writePiece c.toDisplay format) :=
    flatMap_chunks_fuel (writePiece_nil _ _) (by omega) le_rfl
  rw [hset, ← hmore, chunks]
  split
  next hle =>
    rw [List.take_of_length_le hle, Nat.min_eq_left hle, List.drop_length, List.flatMap_cons, List.flatMap_nil,
      List.append_nil, flatMap_chunks_nil (writePiece_nil _ _), List.append_nil]
  next hle => rw [Nat.min_eq_right (by omega), List.flatMap_cons]

/-! ### Round trips -/

theorem itemsOf_succ (size count : Nat) (data : Bytes) :
    itemsOf size (count + 1) data = .ofNat (ofLittleEndian (data.take size)) :: itemsOf size count
        (data.drop size) := by
  rw [itemsOf, List.range_succ_eq_map, List.map_cons, List.map_map, Nat.zero_mul, List.drop_zero]
  refine congrArg _ (List.map_congr_left fun i _ => ?_)
  rw [Function.comp_apply, List.drop_drop, Nat.succ_mul, Nat.add_comm]

/-- Items of four bytes at most have the bytes that they are made of. -/
theorem bytes_itemsOf {size count : Nat} (hsize : size ≤ 4) {data : Bytes} (hlength : data.length = count * size) :
    (itemsOf size count data).flatMap (fun item => littleEndian size item.toNat) = data := by
  induction count generalizing data with
  | zero =>
    rw [Nat.zero_mul] at hlength
    exact (List.eq_nil_of_length_eq_zero hlength).symm
  | succ count ih =>
    rw [Nat.succ_mul] at hlength
    have hfirst : (data.take size).length = size := List.length_take_of_le (by omega)
    have hsmall : ofLittleEndian (data.take size) < 2 ^ 32 :=
      (ofLittleEndian_lt _).trans_le (hfirst.symm ▸ Nat.pow_le_pow_right (by decide : 0 < 256) hsize)
    have hbytes := littleEndian_ofLittleEndian (data.take size)
    rw [hfirst] at hbytes
    rw [itemsOf_succ, List.flatMap_cons, ih (by rw [List.length_drop]; omega), UInt32.toNat_ofNat_of_lt' hsmall, hbytes,
      List.take_append_drop]

theorem dvd_chunks {α : Type} {k size fuel : Nat} {l : List α} (hsize : k ∣ size) (hl : k ∣ l.length) :
    ∀ piece ∈ chunks size fuel l, k ∣ piece.length := by
  induction fuel generalizing l with
  | zero => exact fun piece hmem => absurd hmem List.not_mem_nil
  | succ fuel ih =>
    rw [chunks]
    split
    next hle =>
      intro piece hmem
      rw [List.mem_singleton.mp hmem]
      exact hl
    next hle =>
      intro piece hmem
      rcases List.mem_cons.mp hmem with rfl | hmem
      · rw [List.length_take_of_le (by omega)]
        exact hsize
      · refine ih ?_ piece hmem
        rw [List.length_drop]
        exact Nat.dvd_sub hl hsize

theorem flatMap_chunks_self {α β : Type} {k size : Nat} {l : List α} (hpos : 0 < size) (hsize : k ∣ size)
    (hl : k ∣ l.length) {f : List α → List β} {g : List β → List α}
    (hg : ∀ a b, g (a ++ b) = g a ++ g b) (hnil : g [] = []) (hf : ∀ piece, k ∣ piece.length → g (f piece) = piece) :
    g ((chunks size l.length l).flatMap f) = l := by
  have hpieces (pieces : List (List α)) (hall : ∀ piece ∈ pieces, k ∣ piece.length) :
      g (pieces.flatMap f) = pieces.flatten := by
    induction pieces with
    | nil => exact hnil
    | cons piece pieces ih =>
      rw [List.flatMap_cons, hg, List.flatten_cons, hf piece (hall piece List.mem_cons_self),
        ih fun p hp => hall p (List.mem_cons_of_mem _ hp)]
  rw [hpieces _ (dvd_chunks hsize hl), chunks_flatten hpos le_rfl]

theorem length_memory (size : Nat) (items : List UInt32) :
    (items.flatMap fun item => littleEndian size item.toNat).length = size * items.length := by
  induction items with
  | nil => rfl
  | cons item items ih =>
    rw [List.flatMap_cons, List.length_append, length_littleEndian, ih, List.length_cons, Nat.mul_succ, Nat.add_comm]

/-- Data of items that are in memory as on the wire is read as it was written. -/
theorem roundTrip_small {d : Display} (hmax : 0 < d.maxRequestSize) {format : Nat} (hformat : format = 8 ∨ format = 16)
    {data : Bytes} (hdata : d.datumSize format ∣ data.length) (type : Atom) :
    XWindowsUtil.getWindowProperty d (XWindowsUtil.setWindowProperty d data type format) = data := by
  have hdatum : d.datumSize format = format / 8 := by
    rw [Display.datumSize, if_neg (by rcases hformat with rfl | rfl <;> decide)]
  have hread (piece : List UInt32) : readPiece d format piece =
      piece.flatMap fun item => littleEndian (format / 8) item.toNat := by
    rw [readPiece, hdatum]
    exact List.take_of_length_le (length_memory (format / 8) piece).le
  have hpos : 0 < d.maxRequestSize * (32 / format) :=
    Nat.mul_pos hmax (by rcases hformat with rfl | rfl <;> decide)
  have hget (p : WindowProperty) (hp : p.format = format) : XWindowsUtil.getWindowProperty d p =
      p.items.flatMap fun item => littleEndian (format / 8) item.toNat := by
    have hunfold : XWindowsUtil.getWindowProperty d p =
        (chunks (d.maxRequestSize * (32 / p.format)) p.items.length p.items).flatMap (readPiece d p.format) := rfl
    rw [hunfold, hp, List.flatMap_congr fun piece _ => hread piece, flatMap_flatMap_chunks hpos le_rfl]
  have hset : (XWindowsUtil.setWindowProperty d data type format).items =
      (chunks (4 * d.maxRequestSize) data.length data).flatMap (writePiece d format) := rfl
  have hfour : 0 < 4 * d.maxRequestSize := by omega
  rw [hdatum] at hdata
  rw [hget _ rfl, hset]
  refine flatMap_chunks_self (k := format / 8)
    (g := fun items : List UInt32 => items.flatMap fun item => littleEndian (format / 8) item.toNat) hfour ?_ hdata
    (fun a b => List.flatMap_append) rfl fun piece hpiece => ?_
  · rcases hformat with rfl | rfl
    · exact Nat.one_dvd _
    · exact Dvd.dvd.mul_right (by decide) _
  · rw [writePiece, hdatum]
    refine bytes_itemsOf (by rcases hformat with rfl | rfl <;> decide) ?_
    exact (Nat.div_mul_cancel hpiece).symm

theorem length_readPiece {d : Display} (hsize : d.sizeofAtom = 8) (piece : List UInt32) :
    (readPiece d 32 piece).length = 4 * piece.length := by
  have hdatum : d.datumSize 32 = 8 := hsize
  rw [readPiece, List.length_take, length_memory, hdatum]
  omega

theorem length_writePiece_le {d : Display} (hsize : d.sizeofAtom = 8) (pieces : List Bytes) :
    8 * (pieces.flatMap (writePiece d 32)).length ≤ pieces.flatten.length := by
  induction pieces with
  | nil => exact le_rfl
  | cons piece pieces ih =>
    have hdatum : d.datumSize 32 = 8 := hsize
    have hpiece : (writePiece d 32 piece).length = piece.length / 8 := by
      rw [writePiece, itemsOf, List.length_map, List.length_range, hdatum]
    rw [List.flatMap_cons, List.length_append, hpiece, List.flatten_cons, List.length_append]
    omega

/-- Half as many bytes are read as were written. -/
theorem length_roundTrip {d : Display} (hmax : 0 < d.maxRequestSize) (hsize : d.sizeofAtom = 8) (data : Bytes)
    (type : Atom) :
    2 * (XWindowsUtil.getWindowProperty d (XWindowsUtil.setWindowProperty d data type 32)).length ≤ data.length := by
  have hread : (XWindowsUtil.getWindowProperty d (XWindowsUtil.setWindowProperty d data type 32)).length =
      4 * (XWindowsUtil.setWindowProperty d data type 32).items.length :=
    length_flatMap_chunks (Nat.mul_pos hmax (by decide : 0 < 32 / 32)) le_rfl (length_readPiece hsize)
  have hwritten := length_writePiece_le hsize (chunks (4 * d.maxRequestSize) data.length data)
  rw [chunks_flatten (by omega) le_rfl] at hwritten
  change 8 * (XWindowsUtil.setWindowProperty d data type 32).items.length ≤ _ at hwritten
  omega

/-- What is written is read again, whatever was there before and whenever an error is noticed. -/
def RoundTrip (c : Connection) (data : Bytes) (type : Atom) (format : Nat) : Prop :=
  ∀ (noticed : Bool) (old : Option WindowProperty),
    c.getWindowProperty (c.setWindowProperty noticed old data type format) [] = some (data, type, format)

theorem not_roundTrip_refused {type : Atom} {format : Nat} {data : Bytes}
    (hrefused : ¬Sendable c type format data.length) : ¬RoundTrip c data type format := by
  intro h
  rw [Sendable, not_and_or, not_not, Nat.not_le] at hrefused
  have hnone : c.XChangeProperty none type format false data
      (min data.length (4 * c.maxRequestSize) / c.datumSize format) = none := by
    rw [Connection.XChangeProperty, if_pos hrefused]
    exact fun _ hfalse _ => Bool.false_ne_true hfalse
  have hset : c.setWindowProperty true none data type format = none := by
    rw [Connection.setWindowProperty, hnone]
    rfl
  have hget := h true none
  rw [hset] at hget
  cases hget

/-- A transfer is lossless unless it is one of items of 32 bits, or a request of it is refused. -/
theorem roundTrip_iff (hsize : c.sizeofAtom = 8) (hmax : 0 < c.maxRequestSize) {format : Nat}
    (hformat : KnownFormat format) {data : Bytes} (hdata : c.datumSize format ∣ data.length) (type : Atom) :
    RoundTrip c data type format ↔ (format ≠ 32 ∨ data = []) ∧ Sendable c type format data.length := by
  by_cases hsend : Sendable c type format data.length
  · have hread (noticed : Bool) (old : Option WindowProperty) :
        c.getWindowProperty (c.setWindowProperty noticed old data type format) [] = some (XWindowsUtil.getWindowProperty
          c.toDisplay (XWindowsUtil.setWindowProperty c.toDisplay data type format), type, format) := by
      rw [setWindowProperty_chunks hmax hsend, getWindowProperty_chunks hformat hmax, List.nil_append]
      rfl
    rw [and_iff_left hsend]
    refine ⟨fun h => ?_, fun h noticed old => ?_⟩
    · by_contra hlost
      rw [not_or, not_not] at hlost
      obtain ⟨rfl, hnonempty⟩ := hlost
      have hsame := h true none
      rw [hread] at hsame
      have hbytes := (Prod.mk.inj (Option.some.inj hsame)).1
      have hhalf := length_roundTrip hmax hsize data type
      have := List.length_pos_iff.mpr hnonempty
      rw [hbytes] at hhalf
      omega
    · rw [hread]
      by_cases h32 : format = 32
      · obtain rfl := h.resolve_left (not_not.mpr h32)
        rfl
      · have hsmall : format = 8 ∨ format = 16 := by
          rcases hformat with hf | hf | hf
          · exact .inl hf
          · exact .inr hf
          · exact absurd hf h32
        rw [roundTrip_small hmax hsmall hdata type]
  · exact iff_of_false (not_roundTrip_refused hsend) fun h => hsend h.2

end

/-! ### Transfers in increments -/

/-- A reply that is being sent, and how far. -/
structure SendingReply extends Reply where
  ptr : Nat
  replied : Bool
  done : Bool

/-- What comes of a call to send more of a reply: whether it is finished, the reply and the property after the call,
and the property that the requestor is notified of, if it is. -/
structure SentReply where
  finished : Bool
  reply : SendingReply
  property : Option WindowProperty
  notified : Option Atom

namespace XWindowsClipboard
variable (c : Connection) (atomINCR : Atom)

/-- `noticed` is whether an error of a request is known before the next one is made, and `failed` whether it is known
when the requests of the call have been made. -/
def sendReply (noticed failed : Bool) (property : Option WindowProperty) (reply : SendingReply) : SentReply :=
  if reply.done then ⟨true, reply, property, none⟩
  else
    let maxRequestSize := 3 * c.maxRequestSize
    let useINCR := decide (maxRequestSize < reply.data.length)
    let (failed, reply, property) :=
      if reply.property = noAtom then (true, reply, property)
      else if useINCR && !reply.replied then
        (failed, reply,
          c.setWindowProperty noticed property (littleEndian 4 reply.data.length) atomINCR 32)
      else
        let size := min (reply.data.length - reply.ptr) maxRequestSize
        let property :=
          c.setWindowProperty noticed property ((reply.data.drop reply.ptr).take size) reply.type reply.format
        if failed then (true, reply, property)
        else (false, { reply with ptr := reply.ptr + size, done := size = 0 || !useINCR }, property)
    if failed then
      let reply := { reply with done := true }
      if !reply.replied then ⟨true, reply, none, some noAtom⟩
      else ⟨false, reply, c.setWindowProperty noticed none [] reply.type reply.format, none⟩
    else if reply.replied then ⟨false, reply, property, none⟩
    else ⟨false, { reply with replied := true }, property, some reply.property⟩

end XWindowsClipboard

/-- The events that the X server sends to a requestor. -/
inductive XEvent
  | destroyNotify (window : Window)
  | selectionNotify (requestor : Window) (property : Atom)
  | propertyNotify (window : Window) (atom : Atom) (newValue : Bool)
  | other

/-- A request for the data of a selection, and what has come of it. -/
structure CICCCMGetClipboard where
  requestor : Window
  property : Atom
  atomNone : Atom
  atomIncr : Atom
  reading : Bool := false
  incr : Bool := false
  failed : Bool := false
  done : Bool := false
  error : Bool := false
  data : Bytes := []
  actualTarget : Atom := noAtom

namespace CICCCMGetClipboard
variable (c : Connection)

/-- The data is got from the property. -/
def readProperty (property : Option WindowProperty) (s : CICCCMGetClipboard) : CICCCMGetClipboard :=
  match c.getWindowProperty property s.data with
  | none => { s with failed := true }
  | some (data, target, _) =>
    let oldSize := s.data.length
    let s := { s with data := data }
    if target = s.atomIncr then
      if s.incr || data.length = oldSize then { s with failed := true, error := true }
      else { s with incr := true, data := [] }
    else if s.incr then
      let s :=
        if oldSize = 0 then { s with actualTarget := target }
        else if target ≠ s.actualTarget then { s with failed := true, error := true }
        else s
      if data.length = oldSize then { s with done := true } else s
    else { s with actualTarget := target, done := true }

/-- The request after an event, and whether the event was for it. -/
def processEvent (property : Option WindowProperty) (s : CICCCMGetClipboard) (event : XEvent) :
    CICCCMGetClipboard × Bool :=
  match event with
  | .destroyNotify window => if window = s.requestor then ({ s with failed := true }, true) else (s, false)
  | .selectionNotify requestor atom =>
    if requestor = s.requestor then
      if atom = noAtom ∨ atom = s.atomNone then ({ s with done := true }, true)
      else if atom = s.property then (readProperty c property { s with reading := true }, true)
      else (s, false)
    else (s, false)
  | .propertyNotify window atom newValue =>
    if window = s.requestor ∧ atom = s.property ∧ newValue = true then
      if !s.reading then (s, true) else (readProperty c property s, true)
    else (s, false)
  | .other => (s, false)

end CICCCMGetClipboard

namespace XWindowsClipboard
variable {c : Connection}

/-- The property that announces a transfer; the requestor has deleted it before. -/
def announced (c : Connection) (atomINCR : Atom) (noticed failed : Bool) (reply : SendingReply) :
    Option WindowProperty :=
  (sendReply c atomINCR noticed failed none reply).property

/-- A reply that is too large to be sent at once, and has not been announced. -/
def Announcing (c : Connection) (reply : SendingReply) : Prop :=
  reply.done = false ∧ reply.replied = false ∧ reply.property ≠ noAtom ∧
    3 * c.maxRequestSize < reply.data.length

/-- The size of a transfer is four bytes, and no item of eight. -/
theorem setWindowProperty_size (hsize : c.sizeofAtom = 8) (hmax : 0 < c.maxRequestSize) (atomINCR : Atom)
    (noticed : Bool) (n : Nat) :
    ∀ p ∈ c.setWindowProperty noticed none (littleEndian 4 n) atomINCR 32, p = ⟨atomINCR, 32, []⟩ := by
  have hchunk : min (littleEndian 4 n).length (4 * c.maxRequestSize) = 4 := by
    rw [length_littleEndian]
    omega
  have hcount : 4 / c.datumSize 32 = 0 := by
    have hdatum : c.datumSize 32 = 8 := hsize
    rw [hdatum]
  have hrest : (littleEndian 4 n).drop 4 = [] := List.drop_eq_nil_iff.mpr (length_littleEndian 4 n).le
  have hnothing (p : Option WindowProperty) :
      c.appendChunks noticed atomINCR 32 (littleEndian 4 n).length [] p = p := by
    rw [length_littleEndian]
    exact if_pos rfl
  intro p hp
  rw [Connection.setWindowProperty, hchunk, hcount, hrest] at hp
  cases hchange : c.XChangeProperty none atomINCR 32 false (littleEndian 4 n) 0 with
  | none =>
    rw [hchange] at hp
    dsimp only at hp
    rw [hnothing, ite_self] at hp
    cases hp
  | some q =>
    rw [hchange] at hp
    dsimp only at hp
    rw [hnothing] at hp
    obtain rfl := Option.some.inj hp
    rw [Connection.XChangeProperty] at hchange
    · split_ifs at hchange
      exact (Option.some.inj hchange).symm
    · exact fun _ hfalse _ => Bool.false_ne_true hfalse

/-- The announcement has no item. -/
theorem announced_empty (hsize : c.sizeofAtom = 8) (hmax : 0 < c.maxRequestSize) {atomINCR : Atom}
    {reply : SendingReply} (hannouncing : Announcing c reply) (noticed failed : Bool) :
    ∀ p ∈ announced c atomINCR noticed failed reply, p = ⟨atomINCR, 32, []⟩ := by
  obtain ⟨hdone, hreplied, hproperty, hlarge⟩ := hannouncing
  intro p hp
  refine setWindowProperty_size hsize hmax atomINCR noticed reply.data.length p ?_
  rw [announced, sendReply, hdone] at hp
  dsimp only at hp
  rw [decide_eq_true hlarge, hreplied, if_neg Bool.false_ne_true, if_neg hproperty,
    if_pos (show (true && !false) = true from rfl)] at hp
  dsimp only at hp
  rw [hreplied] at hp
  cases failed with
  | true => cases hp
  | false => exact hp

/-- No property without an item is accepted as the announcement of a transfer. -/
theorem readProperty_empty {c' : Connection} (hmax : 0 < c'.maxRequestSize) {s : CICCCMGetClipboard}
    (hincr : s.incr = false) {property : Option WindowProperty} (hempty : ∀ p ∈ property, p = ⟨s.atomIncr, 32, []⟩) :
    (s.readProperty c' property).incr = false ∧ (s.readProperty c' property).failed = true := by
  cases property with
  | none => exact ⟨hincr, rfl⟩
  | some p =>
    obtain rfl := hempty p rfl
    have hread : c'.getWindowProperty (some ⟨s.atomIncr, 32, []⟩) s.data = some (s.data, s.atomIncr, 32) := by
      rw [getWindowProperty_chunks (.inr (.inr rfl)) hmax]
      exact congrArg some (Prod.ext (List.append_nil _) rfl)
    rw [CICCCMGetClipboard.readProperty, hread]
    dsimp only
    rw [if_pos rfl, if_pos (by simp)]
    exact ⟨hincr, rfl⟩

/-- Whatever event it gets, a request does not go on with a transfer that no item announces. -/
theorem processEvent_empty {c' : Connection} (hmax : 0 < c'.maxRequestSize) {s : CICCCMGetClipboard}
    (hincr : s.incr = false) {property : Option WindowProperty} (hempty : ∀ p ∈ property, p = ⟨s.atomIncr, 32, []⟩)
    (event : XEvent) : (s.processEvent c' property event).1.incr = false := by
  cases event with
  | destroyNotify window =>
    rw [CICCCMGetClipboard.processEvent]
    split <;> exact hincr
  | selectionNotify requestor atom =>
    rw [CICCCMGetClipboard.processEvent]
    split_ifs
    · exact hincr
    · exact (@readProperty_empty c' hmax { s with reading := true } hincr property hempty).1
    · exact hincr
    · exact hincr
  | propertyNotify window atom newValue =>
    rw [CICCCMGetClipboard.processEvent]
    split_ifs
    · exact hincr
    · exact (readProperty_empty hmax hincr hempty).1
    · exact hincr
  | other => exact hincr

/-- On a host with atoms of eight bytes a property is transferred as it is if it has no items of 32 bits and no request
of the transfer is refused, and only then; and no announcement carries the size of the transfer or is accepted. -/
theorem property_transfer (hsize : c.sizeofAtom = 8) (hmax : 0 < c.maxRequestSize) :
    (∀ (data : Bytes) (type : Atom) (format : Nat), KnownFormat format → c.datumSize format ∣ data.length →
      (RoundTrip c data type format ↔ (format ≠ 32 ∨ data = []) ∧ Sendable c type format data.length)) ∧
    ∀ (atomINCR : Atom) (reply : SendingReply) (noticed failed : Bool), Announcing c reply →
      announced c atomINCR noticed failed reply ≠ some ⟨atomINCR, 32, [.ofNat reply.data.length]⟩ ∧
      ∀ (c' : Connection) (s : CICCCMGetClipboard) (event : XEvent), 0 < c'.maxRequestSize → s.atomIncr = atomINCR →
        s.incr = false → (s.processEvent c' (announced c atomINCR noticed failed reply) event).1.incr = false := by
  refine ⟨fun data type format hformat hdata => roundTrip_iff hsize hmax hformat hdata type, ?_⟩
  intro atomINCR reply noticed failed hannouncing
  have hempty : ∀ p ∈ announced c atomINCR noticed failed reply, p = ⟨atomINCR, 32, []⟩ :=
    announced_empty hsize hmax hannouncing noticed failed
  refine ⟨fun hsome => ?_, fun c' s event hmax' hatom hincr => ?_⟩
  · have hitems := congrArg WindowProperty.items (hempty _ hsome)
    cases hitems
  · subst hatom
    exact processEvent_empty hmax' hincr hempty event

/-- A host of 64 bits. -/
def host : Connection := ⟨⟨fun _ => 1, 8, 65535, id⟩, 262140⟩

theorem property_transfer_text : RoundTrip host [104, 105] 31 8 :=
  ((@property_transfer host rfl (by decide)).1 [104, 105] 31 8 (.inl rfl) ⟨2, rfl⟩).mpr
    ⟨.inl (by decide), by decide, by decide⟩

/-- Of one atom only the low half is read. -/
theorem atom_halved : ¬∀ (data : Bytes) (type : Atom) (format : Nat), type ≠ noAtom → KnownFormat format →
    host.datumSize format ∣ data.length → RoundTrip host data type format := by
  intro h
  have hatom := h [4, 0, 0, 0, 0, 0, 0, 0] 4 32 (by decide) (.inr (.inr rfl)) ⟨1, rfl⟩
  have hhalf := @length_roundTrip host.toDisplay (by decide) rfl [4, 0, 0, 0, 0, 0, 0, 0] 4
  have hsend : Sendable host 4 32 8 := ⟨by decide, by decide⟩
  have hread := hatom true none
  rw [setWindowProperty_chunks (by decide) hsend, getWindowProperty_chunks (.inr (.inr rfl)) (by decide)] at hread
  have hbytes := (Prod.mk.inj (Option.some.inj hread)).1
  rw [List.nil_append] at hbytes
  rw [hbytes] at hhalf
  exact absurd hhalf (by decide)

end XWindowsClipboard
end Synergy
