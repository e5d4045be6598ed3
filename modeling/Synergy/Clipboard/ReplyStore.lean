import Mathlib.Algebra.Group.Nat.Defs
import Mathlib.Data.Finset.Basic
import Synergy.Clipboard.MultipleAnswers
import Synergy.Lib.SortedMap
import Synergy.Lib.Trace

/-! The replies that the clipboard for X11 still owes to other programs: how they are kept for each window, sent piece
by piece as the properties that carried them are deleted, and dropped. -/
namespace Synergy
open Synergy.Lib

/-- What the X server is told on behalf of a reply; data is with whether it was accepted. -/
inductive Told
  | announced (size : Nat) (accepted : Bool)
  | piece (data : Bytes) (accepted : Bool)
  | deletedProperty
  | cancelled
  | notified (property : Atom)
  deriving DecidableEq

/-- What has been told, each with the number of its reply. -/
abbrev ReplyLog := List (Nat × Told)

/-- A reply in the store, with its number and how far it has been sent. -/
structure StoredReply where
  number : Nat
  reply : Reply
  replied : Bool
  done : Bool
  ptr : Nat
  deriving DecidableEq

/-- The answers of the X server: to `setWindowProperty` when so much has been told, and to the request for the events of
the window of a reply. -/
structure XAnswers where
  accepts : Nat → Bool
  watches : Nat → Bool

/-- The most data that is sent at once. -/
def Display.maxReplySize (d : Display) : Nat := 3 * d.maxRequestSize % 2 ^ 32

/-- Whether a reply is complete, the reply and what has been told after sending more of it. -/
structure ReplySending where
  complete : Bool
  reply : StoredReply
  log : ReplyLog

namespace StoredReply
variable (d : Display) (x : XAnswers)

/-- Tell the requestor that its property is ready, unless it has been told. -/
def notice (r : StoredReply) (log : ReplyLog) : ReplySending :=
  if r.replied then ⟨false, r, log⟩
  else ⟨false, { r with replied := true }, log ++ [(r.number, .notified r.reply.property)]⟩

def fail (r : StoredReply) (log : ReplyLog) : ReplySending :=
  let log := if r.reply.property ≠ noAtom then log ++ [(r.number, .deletedProperty)] else log
  if !r.replied then ⟨true, { r with done := true }, log ++ [(r.number, .notified noAtom)]⟩
  else ⟨false, { r with done := true }, log ++ [(r.number, .cancelled)]⟩

def sendReply (r : StoredReply) (log : ReplyLog) : ReplySending :=
  if r.done then ⟨true, r, log⟩
  else if r.reply.property = noAtom then r.fail log
  else
    let useINCR := d.maxReplySize < r.reply.data.length
    let accepted := x.accepts log.length
    if useINCR ∧ !r.replied then
      let log := log ++ [(r.number, .announced (r.reply.data.length % 2 ^ 32) accepted)]
      if accepted then r.notice log else r.fail log
    else
      let size := min ((r.reply.data.length - r.ptr) % 2 ^ 32) d.maxReplySize
      let log := log ++ [(r.number, .piece ((r.reply.data.drop r.ptr).take size) accepted)]
      if accepted then { r with ptr := r.ptr + size, done := size = 0 || !useINCR }.notice log else r.fail log

end StoredReply

/-- The store. The replies made so far are numbered; `abandoned` are those that were deleted with their window. -/
structure ReplyStore where
  made : List Reply
  replies : SortedMap (id : Window → Nat) (List StoredReply)
  eventMasks : Finset Window
  log : ReplyLog
  deletions : Nat → Nat
  abandoned : List Nat

/-- A request for the selection: what the clipboard and the properties of the requestor are then, whether it is for our
window, and whether we owned the selection at its time. -/
structure SelectionRequest where
  clipboard : XWindowsClipboard
  properties : Atom → Option WindowProperty
  ours : Bool
  owned : Bool
  requestor : Window
  target : Atom
  time : Nat
  property : Atom

/-- The replies that are made for a request, unless a property is read outside of its data. -/
def SelectionRequest.replies (d : Display) (q : SelectionRequest) : Option (List Reply) :=
  if q.ours ∧ q.owned then
    if q.target = d.atomMultiple ∧ q.property ≠ noAtom then
      match q.clipboard.insertMultipleReply d q.properties q.requestor q.time q.property with
      | .error _ => none
      | .ok answer =>
        some (if answer.success then answer.replies else answer.replies ++ [.failure q.requestor q.target q.time])
    else some [(q.clipboard.addSimpleRequest d q.requestor q.target q.time q.property).reply]
  else some [.failure q.requestor q.target q.time]

inductive ReplyEvent
  | addRequest (request : SelectionRequest)
  | processRequest (requestor : Window) (property : Atom)
  | destroyRequest (requestor : Window)
  | clearReplies

namespace ReplyStore
variable (d : Display) (x : XAnswers)

def start : ReplyStore := ⟨[], .empty, ∅, [], fun _ => 0, []⟩

/-- The replies to a window. -/
def line (s : ReplyStore) (w : Window) : List StoredReply := (s.replies.get? w).getD []

/-- The deletions when replies with these numbers are deleted. -/
def delete (s : ReplyStore) (gone : List Nat) : Nat → Nat := fun n => s.deletions n + gone.count n

def insertReply (s : ReplyStore) (reply : Reply) : ReplyStore :=
  let number := s.made.length
  let newWindow := !s.replies.contains reply.requestor
  let s := { s with
    made := s.made ++ [reply]
    eventMasks := if newWindow then insert reply.requestor s.eventMasks else s.eventMasks }
  if newWindow ∧ !x.watches number then
    { s with deletions := s.delete [number], abandoned := number :: s.abandoned }
  else
    { s with
      replies := s.replies.put reply.requestor (s.line reply.requestor ++ [⟨number, reply, false, false, 0⟩]) }

/-- Replies that have been sent one after the other: the numbers of the complete ones, the others, and the log. -/
def pushFrom : List StoredReply → ReplyLog → List Nat × List StoredReply × ReplyLog
  | [], log => ([], [], log)
  | r :: rs, log =>
    let sent := r.sendReply d x log
    if sent.complete then
      let (gone, rest, log) := pushFrom rs sent.log
      (r.number :: gone, rest, log)
    else ([], sent.reply :: rs, sent.log)

/-- Send the replies to a window from one of them on; the complete ones are deleted. -/
def push (s : ReplyStore) (w : Window) (before index : List StoredReply) : ReplyStore :=
  let (gone, rest, log) := pushFrom d x index s.log
  let replies := before ++ rest
  { s with
    replies := if replies = [] then s.replies.erase w else s.replies.put w replies
    eventMasks := if replies = [] then s.eventMasks.erase w else s.eventMasks
    log := log
    deletions := s.delete gone }

/-- Send the replies to a window from the first one on that is looked for. -/
def pushAt (s : ReplyStore) (w : Window) (sought : StoredReply → Bool) : ReplyStore :=
  let before := (s.line w).takeWhile fun r => !sought r
  let index := (s.line w).dropWhile fun r => !sought r
  if index = [] then s else s.push d x w before index

/-- Send the first reply to each window, if that has not been sent yet. -/
def pushReplies (s : ReplyStore) : ReplyStore :=
  s.replies.keys.foldl (fun s w => s.pushAt d x w fun r => !r.replied) s

def addRequest (s : ReplyStore) (replies : List Reply) : ReplyStore :=
  (replies.foldl (insertReply x) s).pushReplies d x

/-- The requestor has deleted a property. -/
def processRequest (s : ReplyStore) (requestor : Window) (property : Atom) : ReplyStore :=
  s.pushAt d x requestor fun r => r.replied && r.reply.property = property

def destroyRequest (s : ReplyStore) (requestor : Window) : ReplyStore :=
  let numbers := (s.line requestor).map StoredReply.number
  { s with
    replies := s.replies.erase requestor
    deletions := s.delete numbers
    abandoned := numbers ++ s.abandoned }

def clearReplies (s : ReplyStore) : ReplyStore :=
  let numbers := s.replies.entries.flatMap fun e => e.2.map StoredReply.number
  { s with
    replies := .empty
    eventMasks := ∅
    deletions := s.delete numbers
    abandoned := numbers ++ s.abandoned }

def step (s : ReplyStore) : ReplyEvent → Option ReplyStore
  | .addRequest request => (request.replies d).map (s.addRequest d x)
  | .processRequest requestor property => some (s.processRequest d x requestor property)
  | .destroyRequest requestor => some (s.destroyRequest requestor)
  | .clearReplies => some s.clearReplies

end ReplyStore
end Synergy

/-! What a run of the store tells of each reply. -/
namespace Synergy
open Synergy.Lib

namespace Told

def notice : Told → Option Atom
  | .notified property => some property
  | _ => none

/-- The data that a piece adds to the property of the requestor. -/
def written : Told → Bytes
  | .piece data true => data
  | _ => []

end Told

/-- What has been told on behalf of one reply. -/
def toldOf (log : ReplyLog) (n : Nat) : List Told := log.filterMap fun e => if e.1 = n then some e.2 else none

def notices (told : List Told) : List Atom := told.filterMap Told.notice

def written (told : List Told) : Bytes := told.flatMap Told.written

/-- The numbers of the replies to a window that the requestor has been notified of, in the order of the notices. -/
def noticed (made : List Reply) (log : ReplyLog) (w : Window) : List Nat :=
  (log.filter fun e => e.2.notice.isSome && made[e.1]?.map Reply.requestor = some w).map Prod.fst

/-- What is told of a reply that is sent to its end: a refusal and nothing else, or a property with all of the data,
unless the transfer was cancelled. -/
def Settled (told : List Told) (reply : Reply) : Prop :=
  notices told = [noAtom] ∧ written told = [] ∨
    notices told = [reply.property] ∧ written told <+: reply.data ∧
      (Told.cancelled ∈ told ∨ written told = reply.data ∨ 2 ^ 32 ≤ reply.data.length)

theorem Settled.told {told : List Told} {reply : Reply} (h : Settled told reply) :
    (notices told).length ≤ 1 ∧ written told <+: reply.data := by
  rcases h with ⟨hnotices, hwritten⟩ | ⟨hnotices, hwritten, -⟩
  · exact ⟨by rw [hnotices]; exact le_rfl, by rw [hwritten]; exact List.nil_prefix⟩
  · exact ⟨by rw [hnotices]; exact le_rfl, hwritten⟩

/-- How far a reply in the store has been sent. -/
structure Progress (told : List Told) (r : StoredReply) : Prop where
  fresh : r.replied = false → told = [] ∧ r.done = false ∧ r.ptr = 0
  notices : r.replied = true → notices told = [r.reply.property]
  written : written told = r.reply.data.take r.ptr
  done : r.done = true → Told.cancelled ∈ told ∨ r.reply.data.length ≤ r.ptr ∨ 2 ^ 32 ≤ r.reply.data.length

theorem notices_append (told more : List Told) : notices (told ++ more) = notices told ++ notices more :=
  List.filterMap_append

theorem written_append (told more : List Told) : written (told ++ more) = written told ++ written more :=
  List.flatMap_append

theorem toldOf_append (log said : ReplyLog) (n : Nat) : toldOf (log ++ said) n = toldOf log n ++ toldOf said n :=
  List.filterMap_append

theorem toldOf_self (n : Nat) (more : List Told) : toldOf (more.map (Prod.mk n)) n = more := by
  induction more with
  | nil => rfl
  | cons told more ih =>
    calc toldOf ((told :: more).map (Prod.mk n)) n
      _ = told :: toldOf (more.map (Prod.mk n)) n := by simp [toldOf]
      _ = told :: more := by rw [ih]

theorem toldOf_of_ne {said : ReplyLog} {n : Nat} (h : ∀ e ∈ said, e.1 ≠ n) : toldOf said n = [] :=
  List.filterMap_eq_nil_iff.mpr fun e he => if_neg (h e he)

theorem noticed_append (made : List Reply) (log said : ReplyLog) (w : Window) :
    noticed made (log ++ said) w = noticed made log w ++ noticed made said w := by
  unfold noticed
  rw [List.filter_append, List.map_append]

theorem noticed_of_ne {made : List Reply} {said : ReplyLog} {w : Window}
    (h : ∀ e ∈ said, made[e.1]?.map Reply.requestor ≠ some w) : noticed made said w = [] := by
  unfold noticed
  rw [List.filter_eq_nil_iff.mpr fun e he => by simp [h e he], List.map_nil]

/-- A reply is noticed as often as its requestor is notified of it. -/
theorem noticed_self {made : List Reply} {n : Nat} {w : Window} (h : made[n]?.map Reply.requestor = some w)
    (more : List Told) : noticed made (more.map (Prod.mk n)) w = (notices more).map fun _ => n := by
  induction more with
  | nil => rfl
  | cons told more ih =>
    have hcons : noticed made ((told :: more).map (Prod.mk n)) w =
        (if told.notice.isSome then [n] else []) ++ noticed made (more.map (Prod.mk n)) w := by
      unfold noticed
      rw [List.map_cons, List.filter_cons]
      cases hsome : told.notice.isSome with
      | false => rfl
      | true => rw [if_pos (by simpa using h)]; rfl
    rw [hcons, ih]
    cases hnotice : told.notice <;> simp [notices, hnotice]

theorem mem_noticed {made : List Reply} {log : ReplyLog} {w : Window} {n : Nat} (h : n ∈ noticed made log w) :
    ∃ e ∈ log, e.1 = n := by
  obtain ⟨e, he, rfl⟩ := List.mem_map.mp h
  exact ⟨e, List.mem_of_mem_filter he, rfl⟩

theorem Progress.told {told : List Told} {r : StoredReply} (h : Progress told r) :
    (Synergy.notices told).length ≤ 1 ∧ Synergy.written told <+: r.reply.data := by
  refine ⟨?_, h.written ▸ List.take_prefix _ _⟩
  cases hreplied : r.replied with
  | false =>
    rw [(h.fresh hreplied).1]
    exact Nat.zero_le 1
  | true =>
    rw [h.notices hreplied]
    exact le_rfl

/-- What one attempt to send a reply comes to, with what it adds to what has been told of it. -/
structure Sent (told more : List Told) (r : StoredReply) (log : ReplyLog) (sent : ReplySending) : Prop where
  log : sent.log = log ++ more.map (Prod.mk r.number)
  number : sent.reply.number = r.number
  reply : sent.reply.reply = r.reply
  settled : sent.complete = true → Settled (told ++ more) r.reply
  progress : sent.complete = false → sent.reply.replied = true ∧ Progress (told ++ more) sent.reply

namespace Progress
variable {d : Display} {x : XAnswers} {told : List Told} {r : StoredReply} (log : ReplyLog)

/-- What has been told before the failure counts for nothing, as it was refused. -/
theorem fail (h : Progress told r) (more : List Told) (hnotices : Synergy.notices more = [])
    (hwritten : Synergy.written more = []) :
    ∃ failing, Sent told (more ++ failing) r log (r.fail (log ++ more.map (Prod.mk r.number))) := by
  have hdeleted : ∃ deleted : List Told, (if r.reply.property ≠ noAtom then
        log ++ more.map (Prod.mk r.number) ++ [(r.number, Told.deletedProperty)]
      else log ++ more.map (Prod.mk r.number)) = log ++ (more ++ deleted).map (Prod.mk r.number) ∧
      Synergy.notices deleted = [] ∧ Synergy.written deleted = [] := by
    by_cases hproperty : r.reply.property ≠ noAtom
    · exact ⟨[.deletedProperty], by simp [hproperty], rfl, rfl⟩
    · exact ⟨[], by simp [hproperty], rfl, rfl⟩
  obtain ⟨deleted, hlog, hdeletedNotices, hdeletedWritten⟩ := hdeleted
  cases hreplied : r.replied with
  | false =>
    obtain ⟨htold, -, -⟩ := h.fresh hreplied
    refine ⟨deleted ++ [.notified noAtom], ?_⟩
    have hfail : r.fail (log ++ more.map (Prod.mk r.number)) =
        ⟨true, { r with done := true },
          log ++ (more ++ (deleted ++ [Told.notified noAtom])).map (Prod.mk r.number)⟩ := by
      simp only [StoredReply.fail, hlog, hreplied]
      simp
    rw [hfail]
    refine ⟨rfl, rfl, rfl, fun _ => .inl ⟨?_, ?_⟩, fun hc => absurd hc (by simp)⟩
    · simp only [htold, notices_append, hnotices, hdeletedNotices]
      rfl
    · simp only [htold, written_append, hwritten, hdeletedWritten]
      rfl
  | true =>
    refine ⟨deleted ++ [.cancelled], ?_⟩
    have hfail : r.fail (log ++ more.map (Prod.mk r.number)) =
        ⟨false, { r with done := true },
          log ++ (more ++ (deleted ++ [Told.cancelled])).map (Prod.mk r.number)⟩ := by
      simp only [StoredReply.fail, hlog, hreplied]
      simp
    rw [hfail]
    refine ⟨rfl, rfl, rfl, fun hc => absurd hc (by simp), fun _ => ?_⟩
    refine ⟨hreplied, fun hc => ?_, fun _ => ?_, ?_, fun _ => ?_⟩
    · exact absurd (hreplied.symm.trans hc) (by simp)
    · simp only [notices_append, hnotices, hdeletedNotices, h.notices hreplied]
      rfl
    · simp only [written_append, hwritten, hdeletedWritten, h.written]
      exact List.append_nil _
    · exact .inl (by simp)

/-- A reply is told to be ready with what has been accepted of it. -/
theorem notice (h : Progress told r) (more : List Told) {r' : StoredReply} (hnumber : r'.number = r.number)
    (hreply : r'.reply = r.reply)
    (hreplied : r'.replied = r.replied) (hnotices : Synergy.notices more = [])
    (hwritten : r.reply.data.take r.ptr ++ Synergy.written more = r.reply.data.take r'.ptr)
    (hdone : r'.done = true → r.reply.data.length ≤ r'.ptr ∨ 2 ^ 32 ≤ r.reply.data.length) :
    ∃ noticed, Sent told (more ++ noticed) r log (r'.notice (log ++ more.map (Prod.mk r.number))) := by
  cases hnew : r.replied with
  | false =>
    obtain ⟨htold, -, -⟩ := h.fresh hnew
    refine ⟨[.notified r.reply.property], ?_⟩
    have hnotice : r'.notice (log ++ more.map (Prod.mk r.number)) =
        ⟨false, { r' with replied := true },
          log ++ (more ++ [Told.notified r.reply.property]).map (Prod.mk r.number)⟩ := by
      simp [StoredReply.notice, hreplied, hnew, hnumber, hreply]
    rw [hnotice]
    refine ⟨rfl, hnumber, hreply, fun hc => absurd hc (by simp), fun _ => ⟨rfl, fun hc => absurd hc (by simp),
      fun _ => ?_, ?_, fun hd => ?_⟩⟩
    · simp only [htold, notices_append, hnotices, hreply]
      rfl
    · dsimp only
      rw [hreply, ← hwritten, ← h.written, written_append, written_append]
      exact congrArg (Synergy.written told ++ ·) (List.append_nil _)
    · dsimp only at hd ⊢
      rw [hreply]
      exact .inr (hdone hd)
  | true =>
    refine ⟨[], ?_⟩
    have hnotice : r'.notice (log ++ more.map (Prod.mk r.number)) =
        ⟨false, r', log ++ more.map (Prod.mk r.number)⟩ := by
      simp [StoredReply.notice, hreplied, hnew]
    rw [hnotice, List.append_nil]
    have hreplied' : r'.replied = true := hreplied.trans hnew
    refine ⟨rfl, hnumber, hreply, fun hc => absurd hc (by simp), fun _ => ⟨hreplied', fun hc => ?_, fun _ => ?_, ?_,
      fun hd => ?_⟩⟩
    · exact absurd (hreplied'.symm.trans hc) (by simp)
    · rw [notices_append, hnotices, h.notices hnew, List.append_nil, hreply]
    · rw [written_append, h.written, hwritten, hreply]
    · rw [hreply]
      exact .inr (hdone hd)

/-- A reply that is sent in one piece, or a last piece without data, sends all that is left. -/
theorem size_done {length ptr most : Nat} (hmost : 0 < most)
    (h : min ((length - ptr) % 2 ^ 32) most = 0 ∨ length ≤ most) :
    length ≤ ptr + min ((length - ptr) % 2 ^ 32) most ∨ 2 ^ 32 ≤ length := by
  by_cases hlarge : 2 ^ 32 ≤ length
  · exact .inr hlarge
  · rw [Nat.mod_eq_of_lt (by omega)] at h ⊢
    omega

theorem sendReply (h : Progress told r) (hsize : 0 < d.maxReplySize) :
    ∃ more, Sent told more r log (r.sendReply d x log) := by
  unfold StoredReply.sendReply
  dsimp only
  split_ifs with hdone hproperty hincr haccepted haccepted
  · have hreplied : r.replied = true := by
      rcases Bool.eq_false_or_eq_true r.replied with ht | hf
      · exact ht
      · exact absurd (hdone.symm.trans (h.fresh hf).2.1) (by simp)
    refine ⟨[], by simp, rfl, rfl, fun _ => .inr ⟨?_, ?_, ?_⟩, fun hc => absurd hc (by simp)⟩
    · rw [List.append_nil, h.notices hreplied]
    · rw [List.append_nil, h.written]
      exact List.take_prefix _ _
    · rw [List.append_nil]
      rcases h.done hdone with hc | hall | hlarge
      · exact .inl hc
      · exact .inr (.inl (h.written.trans (List.take_of_length_le hall)))
      · exact .inr (.inr hlarge)
  · obtain ⟨failing, hsent⟩ := h.fail log [] rfl rfl
    exact ⟨failing, by simpa using hsent⟩
  · obtain ⟨noticed, hsent⟩ := h.notice log [Told.announced (r.reply.data.length % 2 ^ 32)
      (x.accepts log.length)] rfl rfl rfl rfl (List.append_nil _) fun hc => absurd hc hdone
    exact ⟨_, hsent⟩
  · obtain ⟨failing, hsent⟩ := h.fail log [Told.announced (r.reply.data.length % 2 ^ 32)
      (x.accepts log.length)] rfl rfl
    exact ⟨_, hsent⟩
  · rw [haccepted]
    obtain ⟨noticed, hsent⟩ := h.notice log [Told.piece ((r.reply.data.drop r.ptr).take
        (min ((r.reply.data.length - r.ptr) % 2 ^ 32) d.maxReplySize)) true]
      (show StoredReply.number { r with
          ptr := r.ptr + min ((r.reply.data.length - r.ptr) % 2 ^ 32) d.maxReplySize
          done := decide (min ((r.reply.data.length - r.ptr) % 2 ^ 32) d.maxReplySize = 0) ||
            !decide (d.maxReplySize < r.reply.data.length) } = r.number from rfl)
      rfl rfl rfl ((congrArg _ (List.append_nil _)).trans List.take_add.symm)
      fun hd => size_done hsize (by simpa using hd)
    exact ⟨_, hsent⟩
  · obtain ⟨failing, hsent⟩ := h.fail log [Told.piece ((r.reply.data.drop r.ptr).take
      (min ((r.reply.data.length - r.ptr) % 2 ^ 32) d.maxReplySize)) (x.accepts log.length)] rfl (by
        simp [Synergy.written, Told.written, haccepted])
    exact ⟨_, hsent⟩

end Progress

/-- What is kept of the replies to a window: they are in the order in which they were made, those that have been
noticed in front, and the others are behind all that the window has been notified of. -/
structure InLine (made : List Reply) (log : ReplyLog) (w : Window) (l : List StoredReply) : Prop where
  owned : ∀ r ∈ l, made[r.number]? = some r.reply ∧ r.reply.requestor = w
  ordered : l.Pairwise fun a b => a.number < b.number
  front : l.Pairwise fun a b => b.replied = true → a.replied = true
  progress : ∀ r ∈ l, Progress (toldOf log r.number) r
  behind : ∀ r ∈ l, r.replied = false → ∀ n ∈ noticed made log w, n < r.number
  noticed : (noticed made log w).Pairwise (· < ·)

namespace InLine
variable {d : Display} {x : XAnswers} {made : List Reply} {log : ReplyLog} {w : Window} {l before rs : List StoredReply}
  {r : StoredReply}

/-- What is told of replies to other windows changes nothing. -/
theorem frame (h : InLine made log w l) {said : ReplyLog}
    (hother : ∀ e ∈ said, ∃ reply, made[e.1]? = some reply ∧ reply.requestor ≠ w) :
    InLine made (log ++ said) w l := by
  have hnoticed : Synergy.noticed made (log ++ said) w = Synergy.noticed made log w := by
    have hsaid : ∀ e ∈ said, made[e.1]?.map Reply.requestor ≠ some w := by
      intro e he hw
      obtain ⟨reply, hreply, hne⟩ := hother e he
      exact hne (by simpa [hreply] using hw)
    rw [noticed_append, noticed_of_ne hsaid, List.append_nil]
  refine ⟨h.owned, h.ordered, h.front, fun r hr => ?_, ?_, ?_⟩
  · have hother' : ∀ e ∈ said, e.1 ≠ r.number := by
      intro e he heq
      obtain ⟨reply, hreply, hne⟩ := hother e he
      obtain ⟨hmade, hrequestor⟩ := h.owned r hr
      rw [heq, hmade] at hreply
      exact hne (Option.some.inj hreply ▸ hrequestor)
    rw [toldOf_append, toldOf_of_ne hother', List.append_nil]
    exact h.progress r hr
  · rw [hnoticed]
    exact h.behind
  · rw [hnoticed]
    exact h.noticed

/-- A new reply is put behind all others to its window. -/
theorem made_append (h : InLine made log w l) (hlogged : ∀ e ∈ log, e.1 < made.length) (reply : Reply) :
    InLine (made ++ [reply]) log w l := by
  have hnoticed : Synergy.noticed (made ++ [reply]) log w = Synergy.noticed made log w := by
    unfold Synergy.noticed
    refine congrArg _ (List.filter_congr fun e he => ?_)
    rw [List.getElem?_append_left (hlogged e he)]
  refine ⟨fun r hr => ?_, h.ordered, h.front, h.progress, hnoticed ▸ h.behind, hnoticed ▸ h.noticed⟩
  obtain ⟨hmade, hrequestor⟩ := h.owned r hr
  obtain ⟨hlt, -⟩ := List.getElem?_eq_some_iff.mp hmade
  exact ⟨(List.getElem?_append_left hlt).trans hmade, hrequestor⟩

theorem snoc (h : InLine made log w l) (hlogged : ∀ e ∈ log, e.1 < made.length) {reply : Reply}
    (hw : reply.requestor = w) : InLine (made ++ [reply]) log w (l ++ [⟨made.length, reply, false, false, 0⟩]) := by
  have hkept := h.made_append hlogged reply
  have hbound : ∀ r ∈ l, r.number < made.length := fun r hr =>
    (List.getElem?_eq_some_iff.mp (h.owned r hr).1).1
  refine ⟨?_, ?_, ?_, ?_, ?_, hkept.noticed⟩
  · rw [List.forall_mem_append]
    exact ⟨hkept.owned, by simpa using hw⟩
  · rw [List.pairwise_append]
    exact ⟨h.ordered, List.pairwise_singleton _ _, fun r hr => by simpa using hbound r hr⟩
  · rw [List.pairwise_append]
    exact ⟨h.front, List.pairwise_singleton _ _, fun r _ => by simp⟩
  · rw [List.forall_mem_append]
    refine ⟨h.progress, List.forall_mem_singleton.mpr ?_⟩
    have htold : toldOf log made.length = [] := toldOf_of_ne fun e he => (hlogged e he).ne
    refine ⟨fun _ => ⟨htold, rfl, rfl⟩, fun hc => absurd hc (by simp), ?_, fun hc => absurd hc (by simp)⟩
    rw [htold]
    rfl
  · rw [List.forall_mem_append]
    refine ⟨hkept.behind, List.forall_mem_singleton.mpr fun _ n hn => ?_⟩
    obtain ⟨e, he, rfl⟩ := mem_noticed hn
    exact hlogged e he

/-- The numbers that the window is notified of when a reply to it is sent: its own, the first time. -/
theorem noticed_sent (h : InLine made log w (before ++ r :: rs)) {more : List Told}
    (hsettled : (notices (toldOf log r.number ++ more)).length = 1) :
    Synergy.noticed made (log ++ more.map (Prod.mk r.number)) w =
      Synergy.noticed made log w ++ if r.replied then [] else [r.number] := by
  have hmem : r ∈ before ++ r :: rs := by simp
  obtain ⟨hmade, hrequestor⟩ := h.owned r hmem
  rw [noticed_append, noticed_self (by simp [hmade, hrequestor])]
  congr 1
  rw [notices_append, List.length_append] at hsettled
  cases hreplied : r.replied with
  | false =>
    rw [((h.progress r hmem).fresh hreplied).1] at hsettled
    obtain ⟨property, hproperty⟩ := List.length_eq_one_iff.mp ((Nat.zero_add _).symm.trans hsettled)
    rw [hproperty]
    rfl
  | true =>
    rw [(h.progress r hmem).notices hreplied] at hsettled
    rw [List.length_eq_zero_iff.mp (Nat.add_left_cancel hsettled)]
    rfl

/-- The other replies to the window, when one has been sent. -/
theorem others (h : InLine made log w (before ++ r :: rs)) (hbefore : ∀ a ∈ before, a.replied = true)
    {more : List Told} (hsettled : (notices (toldOf log r.number ++ more)).length = 1) :
    InLine made (log ++ more.map (Prod.mk r.number)) w (before ++ rs) := by
  have hsub : (before ++ rs).Sublist (before ++ r :: rs) := (List.sublist_cons_self r rs).append_left before
  have hmem : r ∈ before ++ r :: rs := by simp
  obtain ⟨-, hordered, hbelow⟩ := List.pairwise_append.mp h.ordered
  have hbehind := (List.pairwise_cons.mp hordered).1
  have hnoticed := h.noticed_sent hsettled
  have hlast : ∀ n ∈ (if r.replied then [] else [r.number]), n = r.number ∧ r.replied = false := by
    intro n hn
    cases hreplied : r.replied <;> simp_all
  refine ⟨fun a ha => h.owned a (hsub.mem ha), h.ordered.sublist hsub, h.front.sublist hsub, fun a ha => ?_, ?_, ?_⟩
  · have hne : a.number ≠ r.number := by
      rcases List.mem_append.mp ha with ha | ha
      · exact (hbelow a ha r List.mem_cons_self).ne
      · exact (hbehind a ha).ne'
    have hother : ∀ e ∈ more.map (Prod.mk r.number), e.1 ≠ a.number := by
      rw [List.forall_mem_map]
      exact fun _ _ => hne.symm
    rw [toldOf_append, toldOf_of_ne hother, List.append_nil]
    exact h.progress a (hsub.mem ha)
  · intro a ha hnew n hn
    rw [hnoticed, List.mem_append] at hn
    rcases hn with hn | hn
    · exact h.behind a (hsub.mem ha) hnew n hn
    · rcases List.mem_append.mp ha with ha | ha
      · exact absurd ((hbefore a ha).symm.trans hnew) (by simp)
      · exact (hlast n hn).1 ▸ hbehind a ha
  · rw [hnoticed, List.pairwise_append]
    refine ⟨h.noticed, by split <;> simp, fun n hn n' hn' => ?_⟩
    obtain ⟨rfl, hnew⟩ := hlast n' hn'
    exact h.behind r hmem hnew n hn

/-- A reply that has been sent in part stays where it was. -/
theorem replace (h : InLine made log w (before ++ r :: rs)) {log' : ReplyLog}
    (hothers : InLine made log' w (before ++ rs)) (hbefore : ∀ a ∈ before, a.replied = true) {r' : StoredReply}
    (hnumber : r'.number = r.number) (hreply : r'.reply = r.reply) (hreplied : r'.replied = true)
    (hprogress : Progress (toldOf log' r'.number) r') : InLine made log' w (before ++ r' :: rs) := by
  obtain ⟨howned, howned'⟩ := List.forall_mem_append.mp hothers.owned
  obtain ⟨hprogressed, hprogressed'⟩ := List.forall_mem_append.mp hothers.progress
  obtain ⟨hbehind, hbehind'⟩ := List.forall_mem_append.mp hothers.behind
  obtain ⟨hordered, hbelow, hacross⟩ := List.pairwise_append.mp h.ordered
  obtain ⟨hfront, hfrontRest, -⟩ := List.pairwise_append.mp h.front
  refine ⟨?_, ?_, ?_, ?_, ?_, hothers.noticed⟩
  · rw [List.forall_mem_append, List.forall_mem_cons, hnumber, hreply]
    exact ⟨howned, h.owned r (by simp), howned'⟩
  · rw [List.pairwise_append, List.pairwise_cons, hnumber]
    refine ⟨hordered, List.pairwise_cons.mp hbelow, fun a ha => ?_⟩
    rw [List.forall_mem_cons, hnumber]
    exact List.forall_mem_cons.mp (hacross a ha)
  · rw [List.pairwise_append, List.pairwise_cons]
    refine ⟨hfront, ⟨fun _ _ _ => hreplied, ?_⟩, fun a ha _ _ _ => hbefore a ha⟩
    exact (List.pairwise_cons.mp hfrontRest).2
  · rw [List.forall_mem_append, List.forall_mem_cons]
    exact ⟨hprogressed, hprogress, hprogressed'⟩
  · rw [List.forall_mem_append, List.forall_mem_cons]
    exact ⟨hbehind, fun hnew => absurd (hreplied.symm.trans hnew) (by simp), hbehind'⟩

/-- A reply that is sent to its end leaves the line. -/
theorem send (h : InLine made log w (before ++ r :: rs)) (hsize : 0 < d.maxReplySize)
    (hbefore : ∀ a ∈ before, a.replied = true) :
    (∃ more : List Told, (r.sendReply d x log).log = log ++ more.map (Prod.mk r.number)) ∧
      ((r.sendReply d x log).complete = true → InLine made (r.sendReply d x log).log w (before ++ rs) ∧
        Settled (toldOf (r.sendReply d x log).log r.number) r.reply) ∧
      ((r.sendReply d x log).complete = false →
        InLine made (r.sendReply d x log).log w (before ++ (r.sendReply d x log).reply :: rs) ∧
        (r.sendReply d x log).reply.number = r.number) := by
  obtain ⟨more, hsent⟩ := (h.progress r (by simp)).sendReply (x := x) log hsize
  have htold : toldOf (r.sendReply d x log).log r.number = toldOf log r.number ++ more := by
    rw [hsent.log, toldOf_append, toldOf_self]
  refine ⟨⟨more, hsent.log⟩, fun hcomplete => ?_, fun hcomplete => ?_⟩
  · have hsettled := hsent.settled hcomplete
    rw [htold, hsent.log]
    exact ⟨h.others hbefore (by rcases hsettled with hs | hs <;> rw [hs.1] <;> rfl), hsettled⟩
  · obtain ⟨hreplied, hprogress⟩ := hsent.progress hcomplete
    refine ⟨h.replace ?_ hbefore hsent.number hsent.reply hreplied ?_, hsent.number⟩
    · rw [hsent.log]
      exact h.others hbefore (by rw [hprogress.notices hreplied]; rfl)
    · rw [hsent.number, htold]
      exact hprogress

/-- The replies that are sent from one on: some are settled and gone, the others are kept. -/
theorem pushFrom (hsize : 0 < d.maxReplySize) (hbefore : ∀ a ∈ before, a.replied = true) :
    InLine made log w (before ++ l) →
      InLine made (ReplyStore.pushFrom d x l log).2.2 w (before ++ (ReplyStore.pushFrom d x l log).2.1) ∧
      (∃ said : ReplyLog, (ReplyStore.pushFrom d x l log).2.2 = log ++ said ∧
        ∀ e ∈ said, e.1 ∈ l.map StoredReply.number) ∧
      (ReplyStore.pushFrom d x l log).1 ++ (ReplyStore.pushFrom d x l log).2.1.map StoredReply.number =
        l.map StoredReply.number ∧
      ∀ r ∈ l, r.number ∈ (ReplyStore.pushFrom d x l log).1 →
        Settled (toldOf (ReplyStore.pushFrom d x l log).2.2 r.number) r.reply := by
  induction l generalizing log with
  | nil =>
    intro h
    exact ⟨h, ⟨[], (List.append_nil log).symm, fun e he => absurd he List.not_mem_nil⟩, rfl,
      fun r hr => absurd hr List.not_mem_nil⟩
  | cons r rs ih =>
    intro h
    obtain ⟨⟨more, hlog⟩, hcomplete, hstays⟩ := h.send (x := x) hsize hbefore
    cases hdone : (r.sendReply d x log).complete with
    | false =>
      obtain ⟨hkept, hnumber⟩ := hstays hdone
      have hpush : ReplyStore.pushFrom d x (r :: rs) log =
          ([], (r.sendReply d x log).reply :: rs, (r.sendReply d x log).log) := by
        rw [ReplyStore.pushFrom, hdone]
        rfl
      rw [hpush]
      refine ⟨hkept, ⟨_, hlog, ?_⟩, ?_, fun _ _ hgone => absurd hgone List.not_mem_nil⟩
      · rw [List.forall_mem_map]
        exact fun _ _ => List.mem_cons_self
      · simp [hnumber]
    | true =>
      obtain ⟨hkept, hsettled⟩ := hcomplete hdone
      obtain ⟨hrest, ⟨said, hsaid, habout⟩, hnumbers, hgone⟩ := ih hkept
      have hpush : ReplyStore.pushFrom d x (r :: rs) log =
          (r.number :: (ReplyStore.pushFrom d x rs (r.sendReply d x log).log).1,
            (ReplyStore.pushFrom d x rs (r.sendReply d x log).log).2) := by
        rw [ReplyStore.pushFrom, hdone]
        rfl
      have hbehind := (List.pairwise_cons.mp (List.pairwise_append.mp h.ordered).2.1).1
      rw [hpush]
      refine ⟨hrest, ⟨more.map (Prod.mk r.number) ++ said, ?_, ?_⟩, ?_, ?_⟩
      · rw [← List.append_assoc, ← hlog]
        exact hsaid
      · rw [List.forall_mem_append, List.forall_mem_map]
        exact ⟨fun _ _ => List.mem_cons_self, fun e he => List.mem_cons_of_mem _ (habout e he)⟩
      · exact congrArg (r.number :: ·) hnumbers
      · rw [List.forall_mem_cons]
        refine ⟨fun _ => ?_, fun a ha hmem => ?_⟩
        · -- nothing more is told of a reply once the next one is sent
          have hother : ∀ e ∈ said, e.1 ≠ r.number := by
            intro e he
            obtain ⟨a, ha, heq⟩ := List.mem_map.mp (habout e he)
            exact heq ▸ (hbehind a ha).ne'
          dsimp only
          rw [hsaid, toldOf_append, toldOf_of_ne hother, List.append_nil]
          exact hsettled
        · rcases List.mem_cons.mp hmem with heq | hmem
          · exact absurd heq (hbehind a ha).ne'
          · exact hgone a ha hmem

end InLine

namespace ReplyStore
variable {d : Display} {x : XAnswers} {s t : ReplyStore} {w : Window}

/-- What has become of a reply: it is in the store, or it has been deleted once, and then it was sent to its end unless
it went with its window. -/
def Accounted (s : ReplyStore) (n : Nat) (reply : Reply) : Prop :=
  n ∈ (s.line reply.requestor).map StoredReply.number ∧ s.deletions n = 0 ∨
    n ∉ (s.line reply.requestor).map StoredReply.number ∧ s.deletions n = 1 ∧
      (notices (toldOf s.log n)).length ≤ 1 ∧ written (toldOf s.log n) <+: reply.data ∧
      (n ∈ s.abandoned ∨ Settled (toldOf s.log n) reply)

structure Kept (s : ReplyStore) : Prop where
  lines : ∀ w, InLine s.made s.log w (s.line w)
  stored : ∀ w l, s.replies.get? w = some l → l ≠ [] ∧ w ∈ s.eventMasks
  logged : ∀ e ∈ s.log, e.1 < s.made.length
  unmade : ∀ n, s.made.length ≤ n → s.deletions n = 0
  accounted : ∀ n reply, s.made[n]? = some reply → s.Accounted n reply

theorem kept_start : Kept start := by
  have hline : ∀ w, start.line w = [] := fun _ => rfl
  refine ⟨fun w => ?_, fun w l hl => absurd hl (by simp [start]), fun e he => absurd he List.not_mem_nil,
    fun _ _ => rfl, fun n reply hn => absurd hn (by simp [start])⟩
  rw [hline]
  exact ⟨fun r hr => absurd hr List.not_mem_nil, .nil, .nil, fun r hr => absurd hr List.not_mem_nil,
    fun r hr => absurd hr List.not_mem_nil, .nil⟩

/-- A window is not in the store, or it has replies. -/
theorem Kept.get?_eq (h : s.Kept) (w : Window) :
    s.replies.get? w = if s.line w = [] then none else some (s.line w) := by
  unfold line
  cases hget : s.replies.get? w with
  | none => rfl
  | some l => exact (if_neg (h.stored w l hget).1).symm

theorem Kept.held (h : s.Kept) {n : Nat} (hn : n ∈ (s.line w).map StoredReply.number) :
    n < s.made.length ∧ ∃ reply, s.made[n]? = some reply ∧ reply.requestor = w := by
  obtain ⟨r, hr, rfl⟩ := List.mem_map.mp hn
  have howned := (h.lines w).owned r hr
  exact ⟨(List.getElem?_eq_some_iff.mp howned.1).1, r.reply, howned⟩

theorem Kept.nodup (h : s.Kept) (w : Window) : ((s.line w).map StoredReply.number).Nodup :=
  List.pairwise_map.mpr ((h.lines w).ordered.imp Nat.ne_of_lt)

/-- What is told of the replies to one window leaves the replies to others as they are. -/
theorem Accounted.frame {n : Nat} {reply : Reply} (h : s.Accounted n reply)
    (hline : t.line reply.requestor = s.line reply.requestor) (hdeletions : t.deletions n = s.deletions n)
    (htold : toldOf t.log n = toldOf s.log n) (habandoned : n ∈ s.abandoned → n ∈ t.abandoned) :
    t.Accounted n reply := by
  unfold Accounted
  rw [hline, hdeletions, htold]
  rcases h with h | ⟨hgone, honce, hnotices, hwritten, hsettled⟩
  · exact .inl h
  · exact .inr ⟨hgone, honce, hnotices, hwritten, hsettled.imp habandoned id⟩

theorem delete_of_not_mem {gone : List Nat} {n : Nat} (hn : n ∉ gone) : s.delete gone n = s.deletions n := by
  unfold delete
  rw [List.count_eq_zero.mpr hn]
  rfl

/-- A reply that is held and deleted now is deleted once. -/
theorem delete_of_mem {gone : List Nat} {n : Nat} (hnodup : gone.Nodup) (hn : n ∈ gone) (h : s.deletions n = 0) :
    s.delete gone n = 1 := by
  unfold delete
  rw [h, List.count_eq_one_of_mem hnodup hn]

theorem line_put (replies : SortedMap (id : Window → Nat) (List StoredReply)) (w w' : Window) (l : List StoredReply) :
    ((replies.put w l).get? w').getD [] = if w' = w then l else (replies.get? w').getD [] := by
  rw [SortedMap.get?_put]
  by_cases hw : w' = w
  · subst hw
    simp
  · rw [if_neg hw]
    exact congrArg (Option.getD · []) (if_neg (Ne.symm hw))

theorem line_erase (replies : SortedMap (id : Window → Nat) (List StoredReply)) (w w' : Window) :
    ((replies.erase w).get? w').getD [] = if w' = w then [] else (replies.get? w').getD [] := by
  rw [SortedMap.get?_erase]
  by_cases hw : w' = w
  · subst hw
    simp
  · rw [if_neg hw]
    exact congrArg (Option.getD · []) (if_neg hw)

/-- A new reply is at the end of the line of its window, which is watched, or it is gone with its window. -/
theorem Kept.insertReply_cases (h : s.Kept) (reply : Reply) :
    ∃ masks, s.eventMasks ⊆ masks ∧
      (s.insertReply x reply = { s with
          made := s.made ++ [reply]
          eventMasks := masks
          deletions := s.delete [s.made.length]
          abandoned := s.made.length :: s.abandoned } ∨
        reply.requestor ∈ masks ∧ s.insertReply x reply = { s with
          made := s.made ++ [reply]
          eventMasks := masks
          replies := s.replies.put reply.requestor
            (s.line reply.requestor ++ [⟨s.made.length, reply, false, false, 0⟩]) }) := by
  unfold ReplyStore.insertReply
  cases hcontains : s.replies.contains reply.requestor with
  | false =>
    refine ⟨insert reply.requestor s.eventMasks, Finset.subset_insert _ _, ?_⟩
    cases hwatches : x.watches s.made.length with
    | false => exact .inl (if_pos ⟨rfl, by simp [hwatches]⟩)
    | true => exact .inr ⟨Finset.mem_insert_self _ _, if_neg (by simp [hwatches])⟩
  | true =>
    rw [SortedMap.contains_eq_isSome_get?] at hcontains
    obtain ⟨l, hl⟩ := Option.isSome_iff_exists.mp hcontains
    exact ⟨s.eventMasks, subset_rfl, .inr ⟨(h.stored reply.requestor l hl).2, rfl⟩⟩

theorem Kept.insertReply (h : s.Kept) (reply : Reply) : (s.insertReply x reply).Kept := by
  have hold : ∀ n old, (s.made ++ [reply])[n]? = some old → n ≠ s.made.length → s.made[n]? = some old := by
    intro n old hn hne
    obtain ⟨hlt, -⟩ := List.getElem?_eq_some_iff.mp hn
    rw [List.length_append, List.length_singleton] at hlt
    exact (List.getElem?_append_left (by omega)).symm.trans hn
  have htold : toldOf s.log s.made.length = [] := toldOf_of_ne fun e he => (h.logged e he).ne
  have hlogged : ∀ e ∈ s.log, e.1 < (s.made ++ [reply]).length := fun e he => by
    simpa using Nat.lt_succ_of_lt (h.logged e he)
  have hunmade : ∀ n, (s.made ++ [reply]).length ≤ n → s.made.length < n := fun n hn => by
    simpa [Nat.succ_le_iff] using hn
  obtain ⟨masks, hmasks, heq | ⟨hwatched, heq⟩⟩ := h.insertReply_cases (x := x) reply
  · rw [heq]
    refine ⟨fun w => (h.lines w).made_append h.logged reply, fun w l hl => ⟨(h.stored w l hl).1,
      hmasks (h.stored w l hl).2⟩, hlogged, fun n hn => ?_, fun n old hn => ?_⟩
    · have hne : n ∉ [s.made.length] := by simpa using (hunmade n hn).ne'
      exact (delete_of_not_mem hne).trans (h.unmade n (hunmade n hn).le)
    · by_cases hlast : n = s.made.length
      · subst hlast
        refine .inr ⟨fun hmem => (h.held hmem).1.ne rfl, delete_of_mem (List.nodup_singleton _) (by simp)
          (h.unmade _ le_rfl), ?_, ?_, .inl List.mem_cons_self⟩
        · simp [htold, notices]
        · simp [htold, written]
      · exact (h.accounted n old (hold n old hn hlast)).frame rfl (delete_of_not_mem (by simpa using hlast)) rfl
          (List.mem_cons_of_mem _)
  · have hline : ∀ w, (s.insertReply x reply).line w =
        if w = reply.requestor then s.line reply.requestor ++ [⟨s.made.length, reply, false, false, 0⟩]
        else s.line w := by
      intro w
      rw [heq]
      exact line_put s.replies reply.requestor w _
    refine ⟨fun w => ?_, fun w l hl => ?_, ?_, ?_, fun n old hn => ?_⟩
    · rw [hline, heq]
      split_ifs with hw
      · exact hw ▸ (h.lines reply.requestor).snoc h.logged rfl
      · exact (h.lines w).made_append h.logged reply
    · rw [heq] at hl ⊢
      dsimp only at hl ⊢
      rw [SortedMap.get?_put] at hl
      split_ifs at hl with hw
      · refine ⟨by rw [← Option.some.inj hl]; simp, ?_⟩
        exact (show reply.requestor = w from hw) ▸ hwatched
      · exact ⟨(h.stored w l hl).1, hmasks (h.stored w l hl).2⟩
    · rw [heq]
      exact hlogged
    · rw [heq]
      exact fun n hn => h.unmade n (hunmade n hn).le
    · have hn' : (s.made ++ [reply])[n]? = some old := by
        rw [heq] at hn
        exact hn
      by_cases hlast : n = s.made.length
      · subst hlast
        obtain rfl : reply = old := by simpa using hn'
        refine .inl ⟨?_, ?_⟩
        · rw [hline, if_pos rfl]
          simp
        · rw [heq]
          exact h.unmade _ le_rfl
      · have hkept := h.accounted n old (hold n old hn' hlast)
        by_cases hw : old.requestor = reply.requestor
        · have hmem : n ∈ (s.line reply.requestor ++ [StoredReply.mk s.made.length reply false false 0]).map
                StoredReply.number ↔ n ∈ (s.line old.requestor).map StoredReply.number := by
            rw [hw, List.map_append, List.mem_append]
            simp [hlast]
          unfold Accounted at hkept ⊢
          rw [hline, if_pos hw, hmem, heq]
          exact hkept
        · refine hkept.frame ((hline old.requestor).trans (if_neg hw)) ?_ ?_ ?_
          · rw [heq]
          · rw [heq]
          · rw [heq]
            exact id

/-- More is told of the replies to a window from one of them on; those that are settled are deleted. -/
theorem Kept.advance (h : s.Kept) {before index rest : List StoredReply} {gone : List Nat} {said : ReplyLog}
    (hline : s.line w = before ++ index) (hkept : InLine s.made (s.log ++ said) w (before ++ rest))
    (habout : ∀ e ∈ said, e.1 ∈ index.map StoredReply.number)
    (hnumbers : gone ++ rest.map StoredReply.number = index.map StoredReply.number)
    (hgone : ∀ r ∈ index, r.number ∈ gone → Settled (toldOf (s.log ++ said) r.number) r.reply) :
    Kept { s with
      replies := if before ++ rest = [] then s.replies.erase w else s.replies.put w (before ++ rest)
      eventMasks := if before ++ rest = [] then s.eventMasks.erase w else s.eventMasks
      log := s.log ++ said
      deletions := s.delete gone } := by
  have hheld : ∀ n ∈ index.map StoredReply.number, n ∈ (s.line w).map StoredReply.number := by
    intro n hn
    rw [hline, List.map_append]
    exact List.mem_append_right _ hn
  have hsent : ∀ n ∈ gone, n ∈ index.map StoredReply.number := fun n hn => hnumbers ▸ List.mem_append_left _ hn
  have hline' : ∀ w', ((if before ++ rest = [] then s.replies.erase w
      else s.replies.put w (before ++ rest)).get? w').getD [] = if w' = w then before ++ rest else s.line w' := by
    intro w'
    by_cases hempty : before ++ rest = []
    · rw [if_pos hempty, line_erase, hempty]
      rfl
    · rw [if_neg hempty, line_put]
      rfl
  refine ⟨fun w' => ?_, fun w' l hl => ?_, ?_, fun n hn => ?_, fun n reply hn => ?_⟩
  · change InLine s.made (s.log ++ said) w' _
    rw [line, hline']
    split_ifs with hw
    · exact hw ▸ hkept
    · refine (h.lines w').frame fun e he => ?_
      obtain ⟨-, reply, hmade, hrequestor⟩ := h.held (hheld _ (habout e he))
      exact ⟨reply, hmade, hrequestor ▸ Ne.symm hw⟩
  · have hwatched : before ++ rest ≠ [] → w ∈ s.eventMasks := by
      intro hne
      have hlines : s.line w ≠ [] := by
        intro hempty
        rw [hempty] at hline
        obtain ⟨rfl, rfl⟩ := List.append_eq_nil_iff.mp hline.symm
        exact hne (List.map_eq_nil_iff.mp (List.append_eq_nil_iff.mp hnumbers).2)
      exact (h.stored w (s.line w) ((h.get?_eq w).trans (if_neg hlines))).2
    dsimp only at hl ⊢
    by_cases hempty : before ++ rest = []
    · rw [if_pos hempty, SortedMap.get?_erase] at hl
      rw [if_pos hempty]
      split_ifs at hl with hw
      exact ⟨(h.stored w' l hl).1, Finset.mem_erase.mpr ⟨hw, (h.stored w' l hl).2⟩⟩
    · rw [if_neg hempty, SortedMap.get?_put] at hl
      rw [if_neg hempty]
      split_ifs at hl with hw
      · exact ⟨Option.some.inj hl ▸ hempty, (show w = w' from hw) ▸ hwatched hempty⟩
      · exact h.stored w' l hl
  · rw [List.forall_mem_append]
    exact ⟨h.logged, fun e he => (h.held (hheld _ (habout e he))).1⟩
  · have hnot : n ∉ gone := fun hmem => Nat.not_lt.mpr hn (h.held (hheld n (hsent n hmem))).1
    exact (delete_of_not_mem hnot).trans (h.unmade n hn)
  · have hmade : s.made[n]? = some reply := hn
    have hunchanged : n ∉ index.map StoredReply.number → toldOf (s.log ++ said) n = toldOf s.log n := by
      intro hnot
      have hother : ∀ e ∈ said, e.1 ≠ n := fun e he heq => hnot (heq ▸ habout e he)
      rw [toldOf_append, toldOf_of_ne hother, List.append_nil]
    by_cases hw : reply.requestor = w
    · have hnodup := h.nodup w
      rw [hline, List.map_append, ← hnumbers, List.nodup_append'] at hnodup
      obtain ⟨-, hnodupIndex, hapart⟩ := hnodup
      rw [List.nodup_append'] at hnodupIndex
      have hmem : n ∈ (before ++ rest).map StoredReply.number ↔
          n ∈ (s.line reply.requestor).map StoredReply.number ∧ n ∉ gone := by
        have hapart : n ∈ gone → n ∉ before.map StoredReply.number ∧ n ∉ rest.map StoredReply.number :=
          fun hgone => ⟨fun hn => hapart hn (List.mem_append_left _ hgone), fun hn => hnodupIndex.2.2 hgone hn⟩
        rw [hw, hline, List.map_append, List.map_append, ← hnumbers]
        simp only [List.mem_append]
        tauto
      unfold Accounted
      dsimp only
      rw [line, hline', if_pos hw, hmem]
      rcases h.accounted n reply hmade with ⟨hheld, hdeletions⟩ | ⟨hnot, hdeleted⟩
      · by_cases hsettled : n ∈ gone
        · obtain ⟨r, hr, rfl⟩ := List.mem_map.mp (hsent n hsettled)
          have hreply : r.reply = reply :=
            Option.some.inj (((h.lines w).owned r (hline ▸ List.mem_append_right before hr)).1.symm.trans hmade)
          have hsettled' := hreply ▸ hgone r hr hsettled
          exact .inr ⟨fun hkept => hkept.2 hsettled, delete_of_mem hnodupIndex.1 hsettled hdeletions,
            hsettled'.told.1, hsettled'.told.2, .inr hsettled'⟩
        · exact .inl ⟨⟨hheld, hsettled⟩, (delete_of_not_mem hsettled).trans hdeletions⟩
      · have hnotIndex : n ∉ index.map StoredReply.number := fun hn => hnot (hw ▸ hheld n hn)
        rw [hunchanged hnotIndex]
        exact .inr ⟨fun hkept => hnot hkept.1,
          (delete_of_not_mem fun hn => hnotIndex (hsent n hn)).trans hdeleted.1, hdeleted.2⟩
    · have hnotIndex : n ∉ index.map StoredReply.number := by
        intro hn
        obtain ⟨-, own, howned, hrequestor⟩ := h.held (hheld n hn)
        exact hw (Option.some.inj (hmade.symm.trans howned) ▸ hrequestor)
      exact (h.accounted n reply hmade).frame ((hline' reply.requestor).trans (if_neg hw))
        (delete_of_not_mem fun hn => hnotIndex (hsent n hn)) (hunchanged hnotIndex) id

/-- The replies that are sent to their ends are deleted. -/
theorem Kept.push (h : s.Kept) (hsize : 0 < d.maxReplySize) {before index : List StoredReply}
    (hline : s.line w = before ++ index) (hbefore : ∀ a ∈ before, a.replied = true) :
    (s.push d x w before index).Kept := by
  obtain ⟨hkept, ⟨said, hsaid, habout⟩, hnumbers, hgone⟩ :=
    InLine.pushFrom (x := x) hsize hbefore (hline ▸ h.lines w)
  rw [hsaid] at hkept hgone
  have hpush := h.advance hline hkept habout hnumbers hgone
  rw [← hsaid] at hpush
  exact hpush

/-- The replies in the lines that are emptied go as they are. -/
theorem Kept.abandon (h : s.Kept) {replies : SortedMap (id : Window → Nat) (List StoredReply)} {masks : Finset Window}
    {gone : List Nat} (hlines : ∀ w, (replies.get? w).getD [] = s.line w ∨ (replies.get? w).getD [] = [])
    (hstored : ∀ w l, replies.get? w = some l → l ≠ [] ∧ w ∈ masks) (hnodup : gone.Nodup)
    (hgone : ∀ n, n ∈ gone ↔ ∃ w, (replies.get? w).getD [] = [] ∧ n ∈ (s.line w).map StoredReply.number) :
    Kept { s with
      replies := replies
      eventMasks := masks
      deletions := s.delete gone
      abandoned := gone ++ s.abandoned } := by
  refine ⟨fun w => ?_, hstored, h.logged, fun n hn => ?_, fun n reply hn => ?_⟩
  · change InLine s.made s.log w ((replies.get? w).getD [])
    rcases hlines w with heq | hempty
    · exact heq ▸ h.lines w
    · rw [hempty]
      exact ⟨fun r hr => absurd hr List.not_mem_nil, .nil, .nil, fun r hr => absurd hr List.not_mem_nil,
        fun r hr => absurd hr List.not_mem_nil, (h.lines w).noticed⟩
  · have hnot : n ∉ gone := by
      intro hmem
      obtain ⟨w, -, hheld⟩ := (hgone n).mp hmem
      exact Nat.not_lt.mpr hn (h.held hheld).1
    exact (delete_of_not_mem hnot).trans (h.unmade n hn)
  · -- who is gone was in the line of the reply's own window
    have hown : n ∈ gone → (replies.get? reply.requestor).getD [] = [] ∧
        n ∈ (s.line reply.requestor).map StoredReply.number := by
      intro hmem
      obtain ⟨w, hempty, hheld⟩ := (hgone n).mp hmem
      obtain ⟨-, own, hmade, hrequestor⟩ := h.held hheld
      obtain rfl : reply = own := Option.some.inj (hn.symm.trans hmade)
      exact hrequestor.symm ▸ ⟨hempty, hheld⟩
    unfold Accounted
    change n ∈ ((replies.get? reply.requestor).getD []).map StoredReply.number ∧ s.delete gone n = 0 ∨
      n ∉ ((replies.get? reply.requestor).getD []).map StoredReply.number ∧ s.delete gone n = 1 ∧ _
    rcases h.accounted n reply hn with ⟨hheld, hdeletions⟩ | ⟨hnot, honce, hnotices, hwritten, hsettled⟩
    · by_cases hmem : n ∈ gone
      · obtain ⟨r, hr, rfl⟩ := List.mem_map.mp hheld
        have htold := ((h.lines reply.requestor).progress r hr).told
        have hreply : r.reply = reply :=
          Option.some.inj (((h.lines reply.requestor).owned r hr).1.symm.trans hn)
        refine .inr ⟨?_, delete_of_mem hnodup hmem hdeletions, htold.1, hreply ▸ htold.2,
          .inl (List.mem_append_left _ hmem)⟩
        rw [(hown hmem).1]
        exact List.not_mem_nil
      · refine .inl ⟨?_, (delete_of_not_mem hmem).trans hdeletions⟩
        rcases hlines reply.requestor with heq | hempty
        · exact heq ▸ hheld
        · exact absurd ((hgone n).mpr ⟨_, hempty, hheld⟩) hmem
    · have hmem : n ∉ gone := fun hmem => hnot (hown hmem).2
      refine .inr ⟨fun hheld => hnot ?_, (delete_of_not_mem hmem).trans honce, hnotices, hwritten,
        hsettled.imp (List.mem_append_right _) id⟩
      rcases hlines reply.requestor with heq | hempty
      · exact heq ▸ hheld
      · rw [hempty] at hheld
        exact absurd hheld List.not_mem_nil

/-- The window is gone, and the replies to it with it. -/
theorem Kept.destroyRequest (h : s.Kept) (w : Window) : (s.destroyRequest w).Kept := by
  refine h.abandon (fun w' => ?_) (fun w' l hl => ?_) ?_ fun n => ?_
  · rw [line_erase]
    split_ifs
    · exact .inr rfl
    · exact .inl rfl
  · rw [SortedMap.get?_erase] at hl
    split_ifs at hl
    exact h.stored w' l hl
  · exact h.nodup w
  · constructor
    · exact fun hmem => ⟨w, by rw [line_erase, if_pos rfl], hmem⟩
    · rintro ⟨w', hempty, hmem⟩
      rw [line_erase] at hempty
      split_ifs at hempty with hw
      · exact hw ▸ hmem
      · rw [show s.line w' = [] from hempty] at hmem
        exact absurd hmem List.not_mem_nil

theorem Kept.clearReplies (h : s.Kept) : s.clearReplies.Kept := by
  have hline : ∀ e ∈ s.replies.entries, s.line e.1 = e.2 := fun e he => by
    rw [line, s.replies.get?_of_mem he]
    rfl
  refine h.abandon (fun _ => .inr rfl) (fun w l hl => absurd hl (by simp)) ?_ fun n => ?_
  · rw [List.nodup_flatMap]
    refine ⟨fun e he => ?_, s.replies.sorted.imp_of_mem fun ha hb hlt n hna hnb => ?_⟩
    · exact hline e he ▸ h.nodup e.1
    · dsimp only at hna hnb
      rw [← hline _ ha] at hna
      rw [← hline _ hb] at hnb
      obtain ⟨-, reply, hmade, hrequestor⟩ := h.held hna
      obtain ⟨-, reply', hmade', hrequestor'⟩ := h.held hnb
      rw [← hrequestor, ← hrequestor', Option.some.inj (hmade.symm.trans hmade')] at hlt
      exact lt_irrefl _ hlt
  · rw [List.mem_flatMap]
    constructor
    · rintro ⟨e, he, hmem⟩
      exact ⟨e.1, rfl, hline e he ▸ hmem⟩
    · rintro ⟨w, -, hmem⟩
      have hget := h.get?_eq w
      rw [if_neg fun hempty => absurd (hempty ▸ hmem) List.not_mem_nil] at hget
      obtain ⟨k, hk, hrank⟩ := (SortedMap.get?_eq_some_iff _ _ _).mp hget
      exact ⟨_, hk, hmem⟩

/-- The replies in front of the one that is looked for have all been noticed. -/
theorem Kept.pushAt (h : s.Kept) (hsize : 0 < d.maxReplySize) {sought : StoredReply → Bool}
    (hfront : ∀ a ∈ (s.line w).takeWhile fun r => !sought r, ((s.line w).dropWhile fun r => !sought r) ≠ [] →
      a.replied = true) : (s.pushAt d x w sought).Kept := by
  unfold ReplyStore.pushAt
  dsimp only
  split_ifs with hindex
  · exact h
  · exact h.push hsize (List.takeWhile_append_dropWhile).symm fun a ha => hfront a ha hindex

theorem Kept.pushReplies (h : s.Kept) (hsize : 0 < d.maxReplySize) : (s.pushReplies d x).Kept := by
  unfold ReplyStore.pushReplies
  induction s.replies.keys generalizing s with
  | nil => exact h
  | cons w ws ih =>
    rw [List.foldl_cons]
    exact ih (h.pushAt hsize fun a ha _ => by simpa using List.mem_takeWhile_imp ha)

theorem Kept.addRequest (h : s.Kept) (hsize : 0 < d.maxReplySize) (replies : List Reply) :
    (s.addRequest d x replies).Kept := by
  unfold ReplyStore.addRequest
  refine Kept.pushReplies ?_ hsize
  induction replies generalizing s with
  | nil => exact h
  | cons reply replies ih => exact ih (h.insertReply reply)

/-- The reply whose property was deleted has been noticed, and with it those in front of it. -/
theorem Kept.processRequest (h : s.Kept) (hsize : 0 < d.maxReplySize) (property : Atom) :
    (s.processRequest d x w property).Kept := by
  refine h.pushAt hsize fun a ha hindex => ?_
  obtain ⟨r, rs, hrs⟩ := List.exists_cons_of_ne_nil hindex
  have hline := List.takeWhile_append_dropWhile
    (p := fun r : StoredReply => !(r.replied && r.reply.property = property))
    (l := s.line w)
  have hsought : r.replied = true := by
    have hhead := List.head_dropWhile_not (fun r : StoredReply => !(r.replied && r.reply.property = property)) hindex
    simp only [hrs, List.head_cons, Bool.not_eq_false', Bool.and_eq_true] at hhead
    exact hhead.1
  have hfront := (h.lines w).front
  rw [← hline, hrs] at hfront
  exact (List.pairwise_append.mp hfront).2.2 a ha r List.mem_cons_self hsought

theorem Kept.step (h : s.Kept) (hsize : 0 < d.maxReplySize) {event : ReplyEvent} (hstep : s.step d x event = some t) :
    t.Kept := by
  cases event with
  | addRequest request =>
    obtain ⟨replies, -, rfl⟩ := Option.map_eq_some_iff.mp hstep
    exact h.addRequest hsize replies
  | processRequest requestor property =>
    cases hstep
    exact h.processRequest hsize property
  | destroyRequest requestor =>
    cases hstep
    exact h.destroyRequest requestor
  | clearReplies =>
    cases hstep
    exact h.clearReplies

theorem Kept.run (h : s.Kept) (hsize : 0 < d.maxReplySize) {tr : List (ReplyEvent × ReplyStore)}
    (hrun : Trace (fun s event t => s.step d x event = some t) s tr) : Always Kept tr := by
  induction hrun with
  | nil => exact always_nil Kept
  | cons hstep _ ih =>
    have hnext := h.step hsize hstep
    exact (always_cons _ _ _ _).mpr ⟨hnext, ih hnext⟩

/-- A requestor is notified of each reply to it at most once, in the order in which they were made; every reply is
deleted once as it leaves the store; and a window with replies is watched. -/
structure Orderly (s : ReplyStore) : Prop where
  noticed : ∀ w, (noticed s.made s.log w).Pairwise (· < ·)
  deletions : ∀ n reply, s.made[n]? = some reply →
    s.deletions n = if n ∈ (s.line reply.requestor).map StoredReply.number then 0 else 1
  watched : ∀ w l, s.replies.get? w = some l → l ≠ [] ∧ w ∈ s.eventMasks

theorem Kept.orderly (h : s.Kept) : s.Orderly := by
  refine ⟨fun w => (h.lines w).noticed, fun n reply hn => ?_, h.stored⟩
  rcases h.accounted n reply hn with ⟨hheld, hdeletions⟩ | ⟨hgone, honce, -⟩
  · rw [hdeletions, if_pos hheld]
  · rw [honce, if_neg hgone]

/-- In every run of the store. -/
theorem replies_in_order (hsize : 0 < d.maxReplySize) {tr : List (ReplyEvent × ReplyStore)}
    (hrun : Trace (fun s event t => s.step d x event = some t) start tr) : Always Orderly tr :=
  fun e he => (kept_start.run hsize hrun e he).orderly

/-- A request for the targets of a clipboard with text, answered and taken by the requestor. -/
def targetsRequest : SelectionRequest :=
  ⟨XWindowsClipboard.holdingText, fun _ => none, true, true, 7, (XWindowsClipboard.numbered 8).atomTargets, 0, 5⟩

def targetsAnswered : ReplyStore :=
  start.addRequest (XWindowsClipboard.numbered 8) ⟨fun _ => true, fun _ => true⟩
    [(XWindowsClipboard.holdingText.addSimpleRequest (XWindowsClipboard.numbered 8) 7
      (XWindowsClipboard.numbered 8).atomTargets 0 5).reply]

def targetsTaken : ReplyStore :=
  targetsAnswered.processRequest (XWindowsClipboard.numbered 8) ⟨fun _ => true, fun _ => true⟩ 7 5

theorem targets_run : Trace
    (fun s event t => s.step (XWindowsClipboard.numbered 8) ⟨fun _ => true, fun _ => true⟩ event = some t) start
    [(.addRequest targetsRequest, targetsAnswered), (.processRequest 7 5, targetsTaken)] :=
  .cons rfl (.cons rfl (.nil _))

theorem replies_in_order_targets : targetsTaken.Orderly :=
  replies_in_order (by decide) targets_run _ (List.mem_cons_of_mem _ List.mem_cons_self)

end ReplyStore
end Synergy
