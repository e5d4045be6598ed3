import Synergy.Server.ClientTable
import Synergy.Server.Passages

/-! What the proxies know of the clipboards: whether their copy is dirty and what they
were handed last. How telling them, updating a clipboard and handing it out change it. -/
namespace Synergy
open Synergy.Lib

/-- What a proxy knows of one clipboard. The content is the last one that it was handed
since the clipboard was grabbed from it. -/
structure Copy where
  dirty : Bool
  handed : Option Str
  deriving DecidableEq

/-- A proxy that is deaf, being one for a protocol before 1.6, ignores what it is handed. -/
def Copy.told (deaf : Bool) (id : ClipboardID) (copy : Copy) : Call → Copy
  | .setClipboard j clipboard => if j = id then ⟨copy.dirty && deaf, some clipboard⟩ else copy
  | .grabClipboard j => if j = id then ⟨true, none⟩ else copy
  | .setClipboardDirty j dirty => if j = id then ⟨dirty, copy.handed⟩ else copy
  | _ => copy

abbrev Copies := BaseClientProxy → ClipboardID → Copy

/-- The copies after all that has been told. -/
def copiesAfter (deaf : Finset BaseClientProxy) (copies : Copies) (calls : List (BaseClientProxy × Call)) : Copies :=
  fun client id => calls.foldl (fun copy x => if x.1 = client then copy.told (client ∈ deaf) id x.2 else copy) (copies client id)

theorem Copy.told_of_not_clipboard {deaf : Bool} {id : ClipboardID} {copy : Copy} {m : Call} (h : m.isClipboard = false) :
    copy.told deaf id m = copy := by
  cases m with
  | setClipboard j clipboard => cases h
  | grabClipboard j => cases h
  | setClipboardDirty j dirty => cases h
  | _ => rfl

/-- It makes no difference how often a proxy is told the same. -/
theorem Copy.told_told (deaf : Bool) (id : ClipboardID) (copy : Copy) (m : Call) :
    (copy.told deaf id m).told deaf id m = copy.told deaf id m := by
  cases m with
  | setClipboard j clipboard | grabClipboard j | setClipboardDirty j dirty =>
    by_cases hj : j = id
    · simp [told, hj]
    · simp [told, hj]
  | _ => rfl

section
variable {deaf : Finset BaseClientProxy} {copies : Copies}

theorem copiesAfter_append (calls calls' : List (BaseClientProxy × Call)) :
    copiesAfter deaf copies (calls ++ calls') = copiesAfter deaf (copiesAfter deaf copies calls) calls' := by
  funext client id
  exact List.foldl_append

theorem copiesAfter_of_not_clipboard {calls : List (BaseClientProxy × Call)} (h : ∀ x ∈ calls, x.2.isClipboard = false) :
    copiesAfter deaf copies calls = copies := by
  funext client id
  induction calls with
  | nil => rfl
  | cons x calls ih =>
    have hx : (if x.1 = client then (copies client id).told (client ∈ deaf) id x.2 else copies client id) = copies client id := by
      rw [Copy.told_of_not_clipboard (h x List.mem_cons_self), ite_self]
    rw [copiesAfter, List.foldl_cons, hx]
    exact ih fun y hy => h y (List.mem_cons_of_mem x hy)

theorem copiesAfter_map (m : BaseClientProxy → Call) (client : BaseClientProxy) (id : ClipboardID)
    (l : List (Str × BaseClientProxy)) :
    copiesAfter deaf copies (l.map fun i => (i.2, m i.2)) client id =
      if client ∈ l.map Prod.snd then (copies client id).told (client ∈ deaf) id (m client) else copies client id := by
  induction l generalizing copies with
  | nil => rfl
  | cons i l ih =>
    have hcons : copiesAfter deaf copies (List.map (fun i => (i.2, m i.2)) (i :: l)) =
        copiesAfter deaf (copiesAfter deaf copies [(i.2, m i.2)]) (l.map fun i => (i.2, m i.2)) :=
      copiesAfter_append [(i.2, m i.2)] _
    have hone : copiesAfter deaf copies [(i.2, m i.2)] client id =
        if i.2 = client then (copies client id).told (client ∈ deaf) id (m i.2) else copies client id := rfl
    rw [hcons, ih, hone]
    by_cases hi : i.2 = client
    · subst hi
      simp [Copy.told_told]
    · simp only [List.map_cons, List.mem_cons, hi, Ne.symm hi, if_false, false_or]

end

namespace Server
variable {e : Platform} {s t u : Server} {deaf : Finset BaseClientProxy} {copies : Copies}

/-- Clients whose copy is clear own the clipboard or were handed its current content, the
owner's copy is clear, and what is known of a clipboard is what it holds. -/
structure Fresh (s : Server) (copies : Copies) : Prop where
  current : ∀ c ∈ s.clientSet, ∀ id, (copies c id).dirty = false →
    s.clients.get? (s.clipboards id).owner = some c ∨ (copies c id).handed = some (s.clipboards id).data
  owner : ∀ id, ∃ c ∈ s.clients.get? (s.clipboards id).owner, (copies c id).dirty = false
  marshalled : ∀ id, (s.clipboards id).data = (s.clipboards id).clipboard

instance (s : Server) (copies : Copies) : Decidable (Fresh s copies) :=
  decidable_of_iff ((∀ c ∈ s.clientSet, ∀ id, (copies c id).dirty = false →
      s.clients.get? (s.clipboards id).owner = some c ∨ (copies c id).handed = some (s.clipboards id).data) ∧
    (∀ id, ∃ c ∈ s.clients.get? (s.clipboards id).owner, (copies c id).dirty = false) ∧
    ∀ id, (s.clipboards id).data = (s.clipboards id).clipboard)
    ⟨fun h => ⟨h.1, h.2.1, h.2.2⟩, fun h => ⟨h.1, h.2, h.3⟩⟩

/-- The copies at a later state. -/
def later (deaf : Finset BaseClientProxy) (copies : Copies) (s t : Server) : Copies := copiesAfter deaf copies (callsSince s t)

theorem later_of_calls {l : List (BaseClientProxy × Call)} (h : t.calls = s.calls ++ l) :
    later deaf copies s t = copiesAfter deaf copies l := by
  rw [later, callsSince, h, List.drop_left]

theorem later_later (h : s.Appends t) (k : t.Appends u) : later deaf (later deaf copies s t) t u = later deaf copies s u := by
  rw [later, later, later, h.callsSince_trans k, copiesAfter_append]

theorem SaysNo.appends {kind : Call → Bool} (h : SaysNo kind s t) : s.Appends t := by
  obtain ⟨l, hcalls, -⟩ := h
  exact .of_calls hcalls

theorem SaysNo.later (h : SaysNo Call.isClipboard s t) : later deaf copies s t = copies := by
  obtain ⟨l, hcalls, hl⟩ := h
  rw [later_of_calls hcalls, copiesAfter_of_not_clipboard hl]

/-- The table of clients is sound and the copies are fresh. -/
structure UpToDate (s : Server) (copies : Copies) : Prop where
  named : Named s
  fresh : Fresh s copies

theorem UpToDate.sameTable (h : UpToDate s copies) (hm : SameTable s t) (hb : t.clipboards = s.clipboards) : UpToDate t copies := by
  refine ⟨h.named.sameTable hm, ?_, ?_, ?_⟩
  · rw [hm.clientSet, hm.clients, hb]
    exact h.fresh.current
  · rw [hm.clients, hb]
    exact h.fresh.owner
  · rw [hb]
    exact h.fresh.marshalled

theorem UpToDate.later (h : UpToDate t copies) (hs : SaysNo Call.isClipboard s t) : UpToDate t (later deaf copies s t) :=
  hs.later.symm ▸ h

/-- What happens between two states leaves the copies fresh. -/
structure Freshens (deaf : Finset BaseClientProxy) (s t : Server) : Prop where
  appends : s.Appends t
  sound : ∀ copies, UpToDate s copies → UpToDate t (later deaf copies s t)

namespace Freshens

theorem refl (s : Server) : Freshens deaf s s := ⟨.refl s, fun _ h => h.later (.refl s)⟩

theorem trans (h : Freshens deaf s t) (k : Freshens deaf t u) : Freshens deaf s u :=
  ⟨h.appends.trans k.appends, fun copies hs => later_later h.appends k.appends ▸ k.sound _ (h.sound copies hs)⟩

theorem ite {p : Prop} [Decidable p] (ht : Freshens deaf s t) (hu : Freshens deaf s u) :
    Freshens deaf s (if p then t else u) := by
  split
  · exact ht
  · exact hu

theorem foldl {α : Type*} {f : Server → α → Server} (h : ∀ s a, Freshens deaf s (f s a)) (l : List α) (s : Server) :
    Freshens deaf s (l.foldl f s) := by
  induction l generalizing s with
  | nil => exact refl s
  | cons a l ih => exact (h s a).trans (ih (f s a))

/-- Neither the clients nor the clipboards change and nothing is told of the clipboards. -/
theorem of_saysNo (hm : SameTable s t) (hb : t.clipboards = s.clipboards) (h : SaysNo Call.isClipboard s t) :
    Freshens deaf s t :=
  ⟨h.appends, fun _ hs => (hs.sameTable hm hb).later h⟩

end Freshens

/-- Updates by this client get past the tests on their number and their sender. -/
def Fetches (s : Server) (sender : BaseClientProxy) (id : ClipboardID) (seqNum : UInt32) : Prop :=
  ¬ seqNum < (s.clipboards id).seqNum ∧ s.clients.get? (s.clipboards id).owner = some sender

instance (s : Server) (sender : BaseClientProxy) (id : ClipboardID) (seqNum : UInt32) :
    Decidable (s.Fetches sender id seqNum) := inferInstanceAs (Decidable (_ ∧ _))

/-- What a client holds is over the size limit. -/
def Oversized (e : Platform) (s : Server) (client : BaseClientProxy) (id : ClipboardID) : Prop :=
  exceedsSizeLimit (e.clipboard client id).length s.maximumClipboardSize = true

instance (e : Platform) (s : Server) (client : BaseClientProxy) (id : ClipboardID) : Decidable (s.Oversized e client id) :=
  inferInstanceAs (Decidable (_ = true))

theorem onClipboardChanged_of_not_fetches {sender : BaseClientProxy} {id : ClipboardID} {seqNum : UInt32}
    (h : ¬ s.Fetches sender id seqNum) : s.onClipboardChanged e sender id seqNum = s := by
  unfold onClipboardChanged
  dsimp only
  split
  · rfl
  · rename_i hseq
    exact if_pos fun howner => h ⟨hseq, howner⟩

/-- An update that is not too large changes nothing or is taken up. -/
theorem Fresh.onClipboardChanged_cases (h : Fresh s copies) {sender : BaseClientProxy} {id : ClipboardID} {seqNum : UInt32}
    (hok : s.Fetches sender id seqNum → ¬ s.Oversized e sender id) :
    s.onClipboardChanged e sender id seqNum = s ∨ s.TakesUp e sender id seqNum := by
  by_cases hf : s.Fetches sender id seqNum
  swap
  · exact .inl (onClipboardChanged_of_not_fetches hf)
  by_cases hdata : e.clipboard sender id = (s.clipboards id).data
  swap
  · exact .inr ⟨hf.1, hf.2, hok hf, hdata⟩
  left
  have hsame : { s.clipboards id with clipboard := e.clipboard sender id } = s.clipboards id := by
    rw [hdata, h.marshalled id]
  have hsize : ¬ exceedsSizeLimit (e.clipboard sender id).length s.maximumClipboardSize = true := hok hf
  unfold onClipboardChanged
  dsimp only
  rw [if_neg hf.1, if_neg (not_not.mpr hf.2), if_neg hsize, if_pos hdata, hsame, Function.update_eq_self]

theorem later_call (s : Server) (client : BaseClientProxy) (m : Call) (c : BaseClientProxy) (j : ClipboardID) :
    later deaf copies s (s.call client m) c j =
      if client = c then (copies c j).told (c ∈ deaf) j m else copies c j := by
  rw [later_of_calls (l := [(client, m)]) rfl]
  rfl

/-- Every client in the list is told. -/
theorem later_callEach (hn : Named s) (m : BaseClientProxy → Call) {c : BaseClientProxy} (hc : c ∈ s.clientSet)
    (j : ClipboardID) :
    later deaf copies s (s.callEach m) c j = (copies c j).told (c ∈ deaf) j (m c) := by
  obtain ⟨n, hmem, -⟩ := (s.clients.get?_eq_some_iff _ c).mp (hn.listed c hc)
  have hin : c ∈ s.clients.entries.map Prod.snd := List.mem_map.mpr ⟨(n, c), hmem, rfl⟩
  rw [later_of_calls rfl, copiesAfter_map, if_pos hin]

/-- An update that is taken up: all other copies are dirty, but the active screen is
handed the new content. -/
private theorem later_takesUp (hn : Named s) {sender : BaseClientProxy} {id : ClipboardID} {seqNum : UInt32}
    (ht : s.TakesUp e sender id seqNum) {c : BaseClientProxy} (hc : c ∈ s.clientSet) (j : ClipboardID) :
    later deaf copies s (s.onClipboardChanged e sender id seqNum) c j =
      if id ≠ j then copies c j
      else if s.active = c then ⟨decide (c ≠ sender) && decide (c ∈ deaf), some (e.clipboard sender id)⟩
      else ⟨c ≠ sender, (copies c j).handed⟩ := by
  obtain ⟨hnot, -⟩ | ⟨-, heq⟩ := onClipboardChanged_cases (e := e) s sender id seqNum
  · exact absurd ht hnot
  let v := s.withContents (Function.update s.contents id (e.clipboard sender id, e.clipboard sender id))
  let w := v.callEach fun client => .setClipboardDirty id (client ≠ sender)
  have hv : Named v := ⟨hn.primary, hn.named, hn.listed, hn.owner⟩
  have hw : later deaf copies v w c j = (copies c j).told (c ∈ deaf) j (.setClipboardDirty id (c ≠ sender)) :=
    later_callEach hv _ hc j
  have happ : v.Appends w := .of_calls rfl
  have hcall : later deaf copies s (s.onClipboardChanged e sender id seqNum) =
      later deaf (later deaf copies v w) w (w.call s.active (.setClipboard id (e.clipboard sender id))) := by
    rw [heq]
    exact (later_later happ (.of_calls rfl)).symm
  rw [hcall, later_call, hw]
  by_cases hj : id = j
  · simp [Copy.told, hj]
  · simp [Copy.told, hj]

private theorem clipboards_takesUp {sender : BaseClientProxy} {id : ClipboardID} {seqNum : UInt32}
    (ht : s.TakesUp e sender id seqNum) : (s.onClipboardChanged e sender id seqNum).clipboards =
      Function.update s.clipboards id
        { s.clipboards id with clipboard := e.clipboard sender id, data := e.clipboard sender id } := by
  obtain ⟨hnot, -⟩ | ⟨-, heq⟩ := onClipboardChanged_cases (e := e) s sender id seqNum
  · exact absurd ht hnot
  rw [heq]
  funext j
  by_cases hj : j = id
  · subst hj
    simp [callEach, call, withContents]
  · simp [callEach, call, withContents, hj, contents]

/-- An update that is not too large leaves the copies fresh. -/
theorem onClipboardChanged_freshens {sender : BaseClientProxy} {id : ClipboardID} {seqNum : UInt32}
    (hok : s.Fetches sender id seqNum → ¬ s.Oversized e sender id) :
    Freshens deaf s (s.onClipboardChanged e sender id seqNum) := by
  have hmoves : Moves (fun _ => False) (fun _ => False) s (s.onClipboardChanged e sender id seqNum) :=
    onClipboardChanged_moves _ s sender id seqNum
  refine ⟨onClipboardChanged_appends s sender id seqNum, fun copies h => ⟨h.named.moves hmoves, ?_⟩⟩
  rcases h.fresh.onClipboardChanged_cases hok with heq | ht
  · rw [heq, (SaysNo.refl s).later]
    exact h.fresh
  have hb := clipboards_takesUp ht
  have hlater : ∀ {c}, c ∈ s.clientSet → ∀ j, later deaf copies s (s.onClipboardChanged e sender id seqNum) c j = _ :=
    fun hc j => later_takesUp h.named ht hc j
  refine ⟨fun c hc j hclear => ?_, fun j => ?_, fun j => ?_⟩
  · rw [hmoves.clientSet] at hc
    rw [hlater hc] at hclear ⊢
    rw [hmoves.clients, hb]
    by_cases hj : id = j
    · subst hj
      rw [Function.update_self]
      by_cases hsender : c = sender
      · exact .inl (hsender ▸ ht.2.1)
      · by_cases hactive : s.active = c
        · exact .inr (by simp [hactive])
        · simp [hactive, hsender] at hclear
    · rw [Function.update_of_ne (Ne.symm hj)]
      simp only [ne_eq, hj, not_false_eq_true, if_true] at hclear ⊢
      exact h.fresh.current c hc j hclear
  · obtain ⟨c, hget, hclear⟩ := h.fresh.owner j
    have hc : c ∈ s.clientSet := (h.named.named _ c hget).2
    rw [hmoves.clients, hb]
    by_cases hj : j = id
    · subst hj
      rw [Function.update_self]
      refine ⟨c, hget, ?_⟩
      obtain rfl : c = sender := Option.some.inj (hget.symm.trans ht.2.1)
      rw [hlater hc]
      by_cases hactive : s.active = c <;> simp [hactive]
    · rw [Function.update_of_ne hj]
      refine ⟨c, hget, ?_⟩
      rw [hlater hc]
      simpa [Ne.symm hj] using hclear
  · rw [hb]
    by_cases hj : j = id
    · subst hj
      rw [Function.update_self]
    · rw [Function.update_of_ne hj]
      exact h.fresh.marshalled j

theorem later_setClipboard (s : Server) (client : BaseClientProxy) (id : ClipboardID) (clipboard : Str) (c : BaseClientProxy)
    (j : ClipboardID) : later deaf copies s (s.call client (.setClipboard id clipboard)) c j =
      if client = c ∧ id = j then ⟨(copies c j).dirty && decide (c ∈ deaf), some clipboard⟩ else copies c j := by
  rw [later_call]
  by_cases hc : client = c
  · by_cases hj : id = j <;> simp [Copy.told, hc, hj]
  · simp [hc]

/-- Handing out what a clipboard holds. -/
theorem call_setClipboard_freshens (s : Server) (client : BaseClientProxy) (id : ClipboardID) :
    Freshens deaf s (s.call client (.setClipboard id (s.clipboards id).clipboard)) := by
  refine ⟨.of_calls rfl, fun copies h => ⟨⟨h.named.primary, h.named.named, h.named.listed, h.named.owner⟩, ?_⟩⟩
  refine ⟨fun c hc j hclear => ?_, fun j => ?_, h.fresh.marshalled⟩
  · rw [later_setClipboard] at hclear ⊢
    split at hclear
    · rename_i hj
      rw [if_pos hj, ← hj.2]
      exact .inr (congrArg some (h.fresh.marshalled id).symm)
    · rename_i hj
      rw [if_neg hj]
      exact h.fresh.current c hc j hclear
  · obtain ⟨c, hget, hclear⟩ := h.fresh.owner j
    refine ⟨c, hget, ?_⟩
    rw [later_setClipboard]
    split
    · simp [hclear]
    · exact hclear

theorem sendClipboards_freshens (s : Server) : Freshens deaf s s.sendClipboards :=
  .foldl (fun s id => .ite (.refl s) (call_setClipboard_freshens s s.active id)) _ _

/-- A grab: the grabber has the only clear copy. -/
theorem grab_freshens {grabber : BaseClientProxy} (hg : grabber ∈ s.clientSet) (id : ClipboardID) (sequenceNumber : UInt32) :
    Freshens deaf s ((s.assignClipboard grabber id sequenceNumber).callEach fun client =>
      if client = grabber then .setClipboardDirty id false else .grabClipboard id) := by
  have hmoves : Moves (fun _ => False) (fun _ => False) s (s.assignClipboard grabber id sequenceNumber) :=
    assignClipboard_moves s hg id sequenceNumber
  have hassigned : ∀ m, SameTable s ((s.assignClipboard grabber id sequenceNumber).callEach m) :=
    fun m => (hmoves.trans (callEach_moves _ _ m)).toSameTable
  refine ⟨.of_calls rfl, fun copies h => ⟨h.named.sameTable (hassigned _), ?_⟩⟩
  have hlater : ∀ c ∈ s.clientSet, ∀ j, later deaf copies s ((s.assignClipboard grabber id sequenceNumber).callEach fun client =>
      if client = grabber then .setClipboardDirty id false else .grabClipboard id) c j =
      if id ≠ j then copies c j else if c = grabber then ⟨false, (copies c j).handed⟩ else ⟨true, none⟩ := by
    intro c hc j
    refine (later_callEach (h.named.moves hmoves) _ hc j).trans ?_
    by_cases hj : id = j
    · by_cases hcg : c = grabber <;> simp [Copy.told, hj, hcg]
    · by_cases hcg : c = grabber <;> simp [Copy.told, hj, hcg]
  refine ⟨fun c hc j hclear => ?_, fun j => ?_, fun j => ?_⟩
  · rw [hlater c hc] at hclear ⊢
    by_cases hj : id = j
    · subst hj
      by_cases hcg : c = grabber
      · subst hcg
        left
        simpa [callEach, assignClipboard] using h.named.listed c hc
      · simp [hcg] at hclear
    · simp only [ne_eq, hj, not_false_eq_true, if_true] at hclear ⊢
      simpa [callEach, assignClipboard, Function.update_of_ne (Ne.symm hj)] using h.fresh.current c hc j hclear
  · by_cases hj : id = j
    · subst hj
      refine ⟨grabber, by simpa [callEach, assignClipboard] using h.named.listed grabber hg, ?_⟩
      simp [hlater grabber hg]
    · obtain ⟨c, hget, hclear⟩ := h.fresh.owner j
      refine ⟨c, by simpa [callEach, assignClipboard, Function.update_of_ne (Ne.symm hj)] using hget, ?_⟩
      rw [hlater c (h.named.named _ c hget).2]
      simpa [hj] using hclear
  · by_cases hj : id = j
    · subst hj
      simp [callEach, assignClipboard]
    · simpa [callEach, assignClipboard, Function.update_of_ne (Ne.symm hj)] using h.fresh.marshalled j

end Server
end Synergy
