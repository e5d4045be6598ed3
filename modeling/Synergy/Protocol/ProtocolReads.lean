import Synergy.Protocol.ProtocolUtil

/-! What a read by a format returns and what it leaves: values of the kinds that were asked
for, and no more than there was. -/
namespace Synergy

/-- The argument without its value. -/
def Arg.kind : Arg → Arg
  | .int _ => .int 0
  | .vector width _ => .vector width []
  | .string _ => .string []
  | .rawData _ => .rawData []

@[simp] theorem Arg.kind_eq_int {arg : Arg} : arg.kind = .int 0 ↔ ∃ value, arg = .int value := by
  cases arg <;> simp [Arg.kind]

@[simp] theorem Arg.kind_eq_vector {arg : Arg} {width : Nat} :
    arg.kind = .vector width [] ↔ ∃ values, arg = .vector width values := by
  cases arg <;> simp [Arg.kind, eq_comm]

@[simp] theorem Arg.kind_eq_string {arg : Arg} : arg.kind = .string [] ↔ ∃ value, arg = .string value := by
  cases arg <;> simp [Arg.kind]

namespace ProtocolUtil
open ReadM

/-- What is read is of the kinds of the places that it is read into. -/
theorem vreadf_kind {fmt : List FormatItem} {args args' : List Arg} {s s' : IStream}
    (h : vreadf fmt args s = (.ok args', s')) : args'.map Arg.kind = args.map Arg.kind := by
  fun_induction vreadf fmt args generalizing s s' args' with
  | case1 args =>
    obtain ⟨rfl, -⟩ : args = args' ∧ s = s' := by simpa [pure] using h
    rfl
  | case2 c fmt args ih =>
    obtain ⟨buffer, s₁, -, h⟩ := ReadM.bind_eq_ok h
    split at h
    · simp [ReadM.fail] at h
    · exact ih h
  | case3 len fmt old args ih =>
    obtain ⟨value, s₁, -, h⟩ := ReadM.bind_eq_ok h
    obtain ⟨rest, s₂, hrest, h⟩ := ReadM.bind_eq_ok h
    obtain ⟨rfl, -⟩ : Arg.int (storeInt len old value) :: rest = args' ∧ s₂ = s' := by simpa [pure] using h
    simp [Arg.kind, ih hrest]
  | case4 len fmt width old args ih =>
    obtain ⟨values, s₁, -, h⟩ := ReadM.bind_eq_ok h
    obtain ⟨rest, s₂, hrest, h⟩ := ReadM.bind_eq_ok h
    obtain ⟨rfl, -⟩ : Arg.vector width values :: rest = args' ∧ s₂ = s' := by simpa [pure] using h
    simp [Arg.kind, ih hrest]
  | case5 len fmt old args hlong => simp [ReadM.fail] at h
  | case6 len fmt old args hlong ih =>
    obtain ⟨value, s₁, -, h⟩ := ReadM.bind_eq_ok h
    obtain ⟨rest, s₂, hrest, h⟩ := ReadM.bind_eq_ok h
    obtain ⟨rfl, -⟩ : Arg.string value :: rest = args' ∧ s₂ = s' := by simpa [pure] using h
    simp [Arg.kind, ih hrest]
  | case7 => simp [ReadM.fail] at h
  | case8 len fmt args hlen ih => exact ih h
  | case9 => simp [ReadM.fail] at h

theorem readf_kind {fmt : Bytes} {args args' : List Arg} {s s' : IStream}
    (h : readf fmt args s = (.ok (some args'), s')) : args'.map Arg.kind = args.map Arg.kind := by
  unfold readf at h
  split at h
  next hread =>
    obtain ⟨hargs, -⟩ := Prod.mk.inj h
    obtain rfl : _ = args' := by simpa using hargs
    exact vreadf_kind hread
  next => simp at h
  next => simp at h

theorem shortens_readLoop (fuel count : Nat) : Shortens (readLoop fuel count) := by
  induction fuel generalizing count with
  | zero => exact shortens_pure _
  | succ fuel ih =>
    unfold readLoop
    split
    · exact shortens_pure _
    · refine (shortens_some count).bind fun bytes => ?_
      split
      · exact shortens_fail _
      · exact (ih _).bind fun _ => shortens_pure _

theorem shortens_read (count : Nat) : Shortens (read count) := shortens_readLoop count count

theorem shortens_readInt (width : Nat) : Shortens (readInt width) := (shortens_read width).map _

theorem shortens_readVectorSize : Shortens readVectorSize := by
  refine (shortens_readInt 4).bind fun size => ?_
  split
  · exact shortens_fail _
  · exact shortens_pure _

theorem shortens_readElements {element : ReadM Nat} (h : Shortens element) (n : Nat) (destination : List Nat) :
    Shortens (readElements element n destination) := by
  induction n generalizing destination with
  | zero => exact shortens_pure _
  | succ n ih => exact h.bind fun x => ih (destination ++ [x])

theorem shortens_readVector {element : ReadM Nat} (h : Shortens element) (destination : List Nat) :
    Shortens (readVector element destination) :=
  shortens_readVectorSize.bind fun size => shortens_readElements h size destination

theorem shortens_readIntOfLength (len : Nat) : Shortens (readIntOfLength len) := by
  unfold readIntOfLength
  split
  · exact shortens_readInt 1
  · exact shortens_readInt 2
  · exact shortens_readInt 4
  · exact shortens_fail _

theorem shortens_readVectorOfLength (len : Nat) (destination : List Nat) :
    Shortens (readVectorOfLength len destination) := by
  unfold readVectorOfLength
  split
  · exact shortens_readVector (shortens_readInt 1) _
  · exact shortens_readVector (shortens_readInt 2) _
  · exact shortens_readVector (shortens_readInt 4) _
  · exact shortens_fail _

theorem shortens_readBytes (len : Nat) : Shortens (readBytes len) := by
  have hlength : Shortens (readBytesLength len) := by
    unfold readBytesLength
    split
    · refine (shortens_readInt 4).bind fun size => ?_
      split
      · exact shortens_fail _
      · exact shortens_pure _
    · exact shortens_pure _
  exact hlength.bind fun size => shortens_read size

theorem shortens_vreadf (fmt : List FormatItem) (args : List Arg) : Shortens (vreadf fmt args) := by
  fun_induction vreadf fmt args with
  | case1 => exact shortens_pure _
  | case2 c fmt args ih =>
    refine (shortens_read 1).bind fun buffer => ?_
    split
    · exact shortens_fail _
    · exact ih
  | case3 len fmt old args ih =>
    exact (shortens_readIntOfLength len).bind fun _ => ih.bind fun _ => shortens_pure _
  | case4 len fmt width old args ih =>
    exact (shortens_readVectorOfLength len old).bind fun _ => ih.bind fun _ => shortens_pure _
  | case5 => exact shortens_fail _
  | case6 len fmt old args hlong ih =>
    exact (shortens_readBytes len).bind fun _ => ih.bind fun _ => shortens_pure _
  | case7 => exact shortens_fail _
  | case8 len fmt args hlen ih => exact ih
  | case9 => exact shortens_fail _

theorem shortens_readf (fmt : Bytes) (args : List Arg) : Shortens (readf fmt args) := by
  intro s
  have h := shortens_vreadf (scanFormat none fmt) args s
  unfold readf
  split <;> simp_all

end ProtocolUtil
end Synergy
