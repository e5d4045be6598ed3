import Mathlib.Logic.Function.Basic

/-! A file system as a map from paths to contents, with the operations that never
replace a file, and what they leave alone. -/
namespace Synergy.Lib
variable {π κ : Type*}

abbrev Files (π κ : Type*) := π → Option κ

namespace Files

/-- Every file of the first file system is in the second, with the same content. -/
def Keeps (fs fs' : Files π κ) : Prop := ∀ path content, fs path = some content → fs' path = some content

theorem Keeps.refl (fs : Files π κ) : Keeps fs fs := fun _ _ h => h

variable [DecidableEq π]

/-- Creates a file whose path is free; nothing otherwise. -/
def create (fs : Files π κ) (path : π) (content : κ) : Option (Files π κ) :=
  if (fs path).isNone then some (Function.update fs path (some content)) else none

def remove (fs : Files π κ) (path : π) : Files π κ := Function.update fs path none

/-- Moves a file to a path that is free; nothing otherwise. -/
def publish (fs : Files π κ) (source target : π) : Option (Files π κ) :=
  if (fs target).isNone then some (remove (Function.update fs target (fs source)) source) else none

theorem create_eq_some {fs fs' : Files π κ} {path : π} {content : κ} (h : fs.create path content = some fs') :
    fs path = none ∧ fs' = Function.update fs path (some content) := by
  unfold create at h
  split at h
  next hfree => exact ⟨by simpa using hfree, (Option.some.inj h).symm⟩
  next => simp at h

theorem publish_eq_some {fs fs' : Files π κ} {source target : π} (h : fs.publish source target = some fs') :
    fs target = none ∧ fs' = remove (Function.update fs target (fs source)) source := by
  unfold publish at h
  split at h
  next hfree => exact ⟨by simpa using hfree, (Option.some.inj h).symm⟩
  next => simp at h

end Files
end Synergy.Lib
