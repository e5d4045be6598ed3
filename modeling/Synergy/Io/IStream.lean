import Mathlib.Data.List.Basic
import Synergy.Io.StreamBuffer

/-! Input streams that hand over their bytes in pieces of any sizes, and programs that
read them. A program keeps the stream's position also when it fails. -/
namespace Synergy

/-- The pieces that are still to come; an empty piece is a read that finds nothing. -/
abbrev IStream := List Bytes

namespace IStream

/-- One read of at most `n` bytes. -/
def read : IStream → Nat → Bytes × IStream
  | [], _ => ([], [])
  | piece :: s, n => if piece.length ≤ n then (piece, s) else (piece.take n, piece.drop n :: s)

/-- The next read finds something. -/
def isReady (s : IStream) : Bool := s.head?.any (!·.isEmpty)

/-- Reads until a read finds nothing. -/
def discard (s : IStream) : IStream := (s.dropWhile (!·.isEmpty)).drop 1

theorem length_read_le (s : IStream) (n : Nat) : (s.read n).2.flatten.length ≤ s.flatten.length := by
  cases s with
  | nil => exact Nat.le_refl _
  | cons piece s => by_cases hlength : piece.length ≤ n <;> simp [read, hlength]

/-- A read that finds something takes it. -/
theorem length_read_lt {s : IStream} {n : Nat} (hn : (s.read n).1 ≠ []) :
    (s.read n).2.flatten.length < s.flatten.length := by
  cases s with
  | nil => exact absurd rfl hn
  | cons piece s =>
    rw [← List.length_pos_iff] at hn
    by_cases hlength : piece.length ≤ n
    · simp only [read, hlength, if_true, List.flatten_cons, List.length_append] at hn ⊢
      omega
    · simp only [read, hlength, if_false, List.length_take, List.flatten_cons, List.length_append,
        List.length_drop] at hn ⊢
      omega

theorem length_discard_le (s : IStream) : s.discard.flatten.length ≤ s.flatten.length := by
  have hsplit : s.flatten.length = (s.takeWhile (!·.isEmpty)).flatten.length +
      (s.dropWhile (!·.isEmpty)).flatten.length := by
    rw [← List.length_append, ← List.flatten_append, List.takeWhile_append_dropWhile]
  have hdrop : ∀ pieces : IStream, (pieces.drop 1).flatten.length ≤ pieces.flatten.length := by
    intro pieces
    cases pieces <;> simp
  have := hdrop (s.dropWhile (!·.isEmpty))
  unfold discard
  omega

/-- The stream delivers exactly these bytes, in non-empty pieces. -/
def Holds (s : IStream) (bytes : Bytes) : Prop := (∀ piece ∈ s, piece ≠ []) ∧ s.flatten = bytes

/-- A read of a stream that has bytes left returns at least one and at most `n` of them. -/
theorem Holds.read {s : IStream} {bytes : Bytes} (h : s.Holds bytes) {n : Nat} (hn : 0 < n) (hb : bytes ≠ []) :
    ∃ out rest, (s.read n).1 = out ∧ out ≠ [] ∧ out.length ≤ n ∧ bytes = out ++ rest ∧ (s.read n).2.Holds rest := by
  obtain ⟨hne, rfl⟩ := h
  cases s with
  | nil => exact absurd rfl hb
  | cons piece s =>
    have hpiece := hne piece (by simp)
    have hrest : ∀ p ∈ s, p ≠ [] := fun p hp => hne p (by simp [hp])
    by_cases hlen : piece.length ≤ n
    · exact ⟨piece, s.flatten, by simp [IStream.read, hlen], hpiece, hlen, rfl, by simpa [IStream.read, hlen, Holds] using hrest⟩
    · have hpos := List.length_pos_iff.mpr hpiece
      refine ⟨piece.take n, (piece.drop n :: s).flatten, by simp [IStream.read, hlen], ?_, List.length_take_le _ _, ?_, ?_⟩
      · rw [← List.length_pos_iff, List.length_take]
        omega
      · rw [List.flatten_cons, List.flatten_cons, ← List.append_assoc, List.take_append_drop]
      · refine ⟨?_, by simp [IStream.read, hlen]⟩
        rintro p hp
        simp only [IStream.read, hlen, if_false, List.mem_cons] at hp
        rcases hp with rfl | hp
        · rw [← List.length_pos_iff, List.length_drop]
          omega
        · exact hrest p hp

end IStream

inductive ReadError
  | endOfStream
  | mismatch
  | badClient (what : String)
  deriving DecidableEq, Repr

/-- A program that reads the stream and may give up. -/
def ReadM (α : Type) := IStream → Except ReadError α × IStream

namespace ReadM
variable {α β : Type}

instance : Monad ReadM where
  pure a s := (.ok a, s)
  bind m f s :=
    match m s with
    | (.ok a, s) => f a s
    | (.error e, s) => (.error e, s)

def fail (e : ReadError) : ReadM α := fun s => (.error e, s)

def some (n : Nat) : ReadM Bytes := fun s => (.ok (s.read n).1, (s.read n).2)

theorem bind_ok {m : ReadM α} {s s' : IStream} {a : α} (h : m s = (.ok a, s')) (f : α → ReadM β) :
    (m >>= f) s = f a s' := by
  change (match m s with
    | (.ok a, s) => f a s
    | (.error e, s) => (.error e, s)) = f a s'
  rw [h]

theorem bind_error {m : ReadM α} {s s' : IStream} {e : ReadError} (h : m s = (.error e, s')) (f : α → ReadM β) :
    (m >>= f) s = (.error e, s') := by
  change (match m s with
    | (.ok a, s) => f a s
    | (.error e, s) => (.error e, s)) = (.error e, s')
  rw [h]

theorem bind_eq_ok {m : ReadM α} {f : α → ReadM β} {s s' : IStream} {b : β} (h : (m >>= f) s = (.ok b, s')) :
    ∃ a s₁, m s = (.ok a, s₁) ∧ f a s₁ = (.ok b, s') := by
  cases hm : m s with
  | mk r s₁ =>
    cases r with
    | ok a =>
      rw [bind_ok hm] at h
      exact ⟨a, s₁, rfl, h⟩
    | error e =>
      rw [bind_error hm] at h
      simp at h

/-- The program leaves no more in the stream than it has found there. -/
def Shortens (m : ReadM α) : Prop := ∀ s, (m s).2.flatten.length ≤ s.flatten.length

theorem shortens_pure (a : α) : Shortens (Pure.pure a : ReadM α) := fun _ => Nat.le_refl _

theorem shortens_fail (e : ReadError) : Shortens (fail e : ReadM α) := fun _ => Nat.le_refl _

theorem Shortens.bind {m : ReadM α} {f : α → ReadM β} (hm : Shortens m) (hf : ∀ a, Shortens (f a)) :
    Shortens (m >>= f) := by
  intro s
  cases h : m s with
  | mk result s₁ =>
    have hlength : s₁.flatten.length ≤ s.flatten.length := by simpa [h] using hm s
    cases result with
    | ok a =>
      rw [bind_ok h]
      exact Nat.le_trans (hf a s₁) hlength
    | error e =>
      rw [bind_error h]
      exact hlength

theorem Shortens.map {m : ReadM α} (f : α → β) (hm : Shortens m) : Shortens (f <$> m) :=
  hm.bind (f := fun a => Pure.pure (f a)) fun _ => shortens_pure _

theorem shortens_some (n : Nat) : Shortens (some n) := fun s => s.length_read_le n

end ReadM

/-- From any stream that starts with these bytes the program reads exactly them and returns `a`. -/
def Reads {α : Type} (m : ReadM α) (bytes : Bytes) (a : α) : Prop :=
  ∀ (s : IStream) (suffix : Bytes), s.Holds (bytes ++ suffix) →
    ∃ rest : IStream, m s = (.ok a, rest) ∧ rest.Holds suffix

namespace Reads
variable {α β : Type}

theorem pure (a : α) : Reads (Pure.pure a) [] a := fun s _ h => ⟨s, rfl, h⟩

theorem bind {m : ReadM α} {f : α → ReadM β} {bytes more : Bytes} {a : α} {b : β}
    (hm : Reads m bytes a) (hf : Reads (f a) more b) : Reads (m >>= f) (bytes ++ more) b := by
  intro s suffix hs
  rw [List.append_assoc] at hs
  obtain ⟨s', hrun, hs'⟩ := hm s (more ++ suffix) hs
  obtain ⟨rest, hrun', hrest⟩ := hf s' suffix hs'
  exact ⟨rest, (ReadM.bind_ok hrun f).trans hrun', hrest⟩

/-- The last read of a program: what follows it only computes. -/
theorem last {m : ReadM α} {f : α → ReadM β} {bytes : Bytes} {a : α} {b : β}
    (hm : Reads m bytes a) (hf : Reads (f a) [] b) : Reads (m >>= f) bytes b := by
  have h := hm.bind hf
  rwa [List.append_nil] at h

theorem map {m : ReadM α} {bytes : Bytes} {a : α} (f : α → β) (hm : Reads m bytes a) :
    Reads (f <$> m) bytes (f a) :=
  hm.last (f := fun x => Pure.pure (f x)) (Reads.pure (f a))

/-- A check that the value passes costs nothing. -/
theorem check {m : ReadM α} {bytes : Bytes} {a : α} (hm : Reads m bytes a) {p : α → Prop} [DecidablePred p]
    (e : ReadError) (ha : ¬ p a) :
    Reads (m >>= fun a => if p a then ReadM.fail e else Pure.pure a) bytes a := by
  have h : Reads (if p a then ReadM.fail e else Pure.pure a) [] a := by
    rw [if_neg ha]
    exact Reads.pure a
  exact hm.last (f := fun a => if p a then ReadM.fail e else Pure.pure a) h

end Reads
end Synergy
