import Synergy.Lib.Trace
import Synergy.Server.FocusSafety
import Synergy.Server.ServerLife

/-! Stopping the server: its clients are told to disconnect, and a loop over the application's
own event queue waits for that. -/
namespace Synergy
open Synergy.Lib

/-- What anybody but `closeServer` adds to the queue. The `stopServer` events are those whose
handlers stop the server, `other` ones have nothing to do with it. -/
inductive QueueEvent where
  | quit (exitCode : Option Int)
  | serverDisconnected
  | server (ev : LifeEvent)
  | stopServer
  | other

/-- The events in the queue, the `Quit` of the handlers in `closeServer` apart. -/
inductive QueuedEvent where
  | ownQuit
  | incoming (ev : QueueEvent)

/-- The event that the loop has got and not yet dispatched. -/
inductive CurrentEvent where
  | event (ev : QueueEvent)
  | closeServerTimer
  | closeClientTimer (timer : Nat)

inductive LoopPhase where
  | looping
  | reentered
  | returned
  deriving DecidableEq

/-- `expired` tells whether the timer of `closeServer` has, `asked` are the exit codes of all
the `Quit` events that others have added. -/
structure CloseServer where
  life : ServerLife
  queue : List QueuedEvent
  current : Option CurrentEvent
  expired : Bool
  phase : LoopPhase
  asked : List (Option Int)

inductive LoopMove where
  | addEvent (ev : QueueEvent)
  | getEvent (e : Platform)
  | expireCloseServer
  | expireCloseClient (timer : Nat)
  | dispatchEvent (e : Platform)

namespace QueuedEvent

/-- The exit code of a `Quit` that somebody else has added. -/
def asks : QueuedEvent → Option (Option Int)
  | incoming (.quit exitCode) => some exitCode
  | _ => none

/-- The event ends a loop or makes a handler of `closeServer` add one that does. -/
def ends : QueuedEvent → Bool
  | ownQuit | incoming (.quit _) | incoming .serverDisconnected => true
  | _ => false

end QueuedEvent

namespace CloseServer

/-- The server has done something that may have announced the end of the last client. -/
def served (c : CloseServer) (life : ServerLife) : CloseServer :=
  { c with
    life := life
    queue := c.queue ++ List.replicate (life.announcements - c.life.announcements) (.incoming .serverDisconnected) }

/-- Up to the call of `EventQueue::loop`. -/
def closeServer (e : Platform) (life : ServerLife) (queue : List QueueEvent) : CloseServer :=
  let c : CloseServer := {
    life := life
    queue := queue.map .incoming
    current := none
    expired := false
    phase := .looping
    asked := (queue.map .incoming).filterMap QueuedEvent.asks }
  c.served (life.disconnect e)

/-- The loop has got a `Quit`: the handlers and the timer go, then the server. -/
def leave (c : CloseServer) (e : Platform) (queue : List QueuedEvent) : CloseServer :=
  { { c with queue := queue }.served (c.life.destroy e) with phase := .returned }

/-- Both handlers of `closeServer` add a `Quit`. -/
def handle (c : CloseServer) (e : Platform) : CurrentEvent → CloseServer
  | .closeServerTimer | .event .serverDisconnected => { c with queue := c.queue ++ [.ownQuit] }
  | .closeClientTimer timer => c.served (c.life.step (e, .closeTimeout timer))
  | .event (.server ev) =>
    match ev with
    | .closeTimeout _ | .destroy => c
    | ev => c.served (c.life.step (e, ev))
  | .event .stopServer => { c with phase := .reentered }
  | .event (.quit _) | .event .other => c

/-- A timer is looked at only when the queue is empty. A handler that stops the server calls
`closeServer` for the same server again; this is not about what comes of it. -/
def step (c : CloseServer) (move : LoopMove) : CloseServer :=
  match c.phase, move, c.current with
  | .looping, .addEvent ev, _ =>
    { c with queue := c.queue ++ [.incoming ev], asked := c.asked ++ (QueuedEvent.incoming ev).asks.toList }
  | .looping, .getEvent e, none =>
    match c.queue with
    | [] => c
    | .ownQuit :: queue | .incoming (.quit _) :: queue => c.leave e queue
    | .incoming ev :: queue => { c with queue := queue, current := some (.event ev) }
  | .looping, .expireCloseServer, none =>
    if c.queue.isEmpty && !c.expired then { c with current := some .closeServerTimer, expired := true } else c
  | .looping, .expireCloseClient timer, none =>
    if c.queue.isEmpty then { c with current := some (.closeClientTimer timer) } else c
  | .looping, .dispatchEvent e, some ev => { c with current := none }.handle e ev
  | _, _, _ => c

/-- Every `Quit` that others have added is in the queue, and none that `closeServer` has. -/
def QuitsKept (c : CloseServer) : Prop := c.queue.filterMap QueuedEvent.asks = c.asked ∧ .ownQuit ∉ c.queue

end CloseServer
end Synergy

/-! Stopping the server leaves the `Quit` events of others alone, and none of its own, exactly
if its handlers find the queue without anything that ends a loop. -/
namespace Synergy
open Synergy.Lib

/-- Its handler adds a `Quit`. -/
def CurrentEvent.isNotice : CurrentEvent → Bool
  | closeServerTimer | event .serverDisconnected => true
  | _ => false

namespace CloseServer
variable {c t : CloseServer}

def noticed (c : CloseServer) : Bool := c.current.any CurrentEvent.isNotice

/-- No `Quit` of somebody else comes to the front, and when a handler adds one there is none
behind it, and no notice that will add another. -/
def undisturbed (c : CloseServer) (move : LoopMove) : Bool :=
  match c.phase, move, c.current with
  | .looping, .getEvent _, none => c.queue.head?.all fun ev => ev.asks.isNone
  | .looping, .dispatchEvent _, some ev => !ev.isNotice || c.queue.all fun ev => !ev.ends
  | _, _, _ => true

def Undisturbed (c : CloseServer) (move : LoopMove) (_ : CloseServer) : Prop := c.undisturbed move = true

instance (c : CloseServer) (move : LoopMove) (t : CloseServer) : Decidable (Undisturbed c move t) :=
  inferInstanceAs (Decidable (_ = true))

/-- What a turn of the loop comes to, and what the condition says of it. -/
inductive Turn (c : CloseServer) (undisturbed : Prop) (t : CloseServer) : Prop
  | left (ev : QueuedEvent) (rest added : List QueuedEvent) (hnoticed : c.noticed = false)
      (hqueue : c.queue = ev :: rest)
      (hends : ev = .ownQuit ∧ undisturbed ∨ (∃ code, ev = .incoming (.quit code)) ∧ ¬ undisturbed)
      (hadded : ∀ ev ∈ added, ev = .incoming .serverDisconnected) (ht : t.queue = rest ++ added)
      (hasked : t.asked = c.asked) (hphase : t.phase = .returned)
  | reentered (hphase : t.phase = .reentered)
  | grown (added : List QueuedEvent) (hown : .ownQuit ∉ added) (hqueue : t.queue = c.queue ++ added)
      (hasked : t.asked = c.asked ++ added.filterMap QueuedEvent.asks) (hnoticed : t.noticed = c.noticed)
      (hphase : t.phase = .looping) (hu : undisturbed)
  | expired (hempty : c.queue = []) (hqueue : t.queue = []) (hasked : t.asked = c.asked) (hphase : t.phase = .looping)
      (hu : undisturbed)
  | got (ev : QueueEvent) (hquit : ∀ code, ev ≠ .quit code) (hnoticed : c.noticed = false)
      (hqueue : c.queue = .incoming ev :: t.queue) (ht : t.noticed = (CurrentEvent.event ev).isNotice)
      (hasked : t.asked = c.asked) (hphase : t.phase = .looping) (hu : undisturbed)
  | answered (hnoticed : c.noticed = true) (ht : t.noticed = false) (hqueue : t.queue = c.queue ++ [.ownQuit])
      (hasked : t.asked = c.asked) (hphase : t.phase = .looping)
      (hu : undisturbed ↔ ∀ ev ∈ c.queue, ev.ends = false)

private theorem Turn.stayed (hphase : c.phase = .looping) {undisturbed : Prop} (hu : undisturbed) :
    Turn c undisturbed c :=
  .grown [] List.not_mem_nil (List.append_nil _).symm (List.append_nil _).symm rfl hphase hu

private theorem served_turn (q : CloseServer) (hphase : q.phase = .looping) (life : ServerLife) {undisturbed : Prop}
    (hqueue : q.queue = c.queue) (hasked : q.asked = c.asked) (hnoticed : q.noticed = c.noticed) (hu : undisturbed) :
    Turn c undisturbed (q.served life) := by
  refine .grown (List.replicate (life.announcements - q.life.announcements) (.incoming .serverDisconnected)) ?_ ?_ ?_
    hnoticed hphase hu
  · intro hmem
    cases List.eq_of_mem_replicate hmem
  · rw [served, hqueue]
  · have hnone : (List.replicate (life.announcements - q.life.announcements)
        (QueuedEvent.incoming .serverDisconnected)).filterMap QueuedEvent.asks = [] := by
      simp [List.filterMap_replicate, QueuedEvent.asks]
    rw [hnone, List.append_nil]
    exact hasked

private theorem handle_turn (hphase : c.phase = .looping) {ev : CurrentEvent} (hcurrent : c.current = some ev)
    (e : Platform) {undisturbed : Prop} (hu : undisturbed ↔ (ev.isNotice → ∀ ev ∈ c.queue, ev.ends = false)) :
    Turn c undisturbed ({ c with current := none }.handle e ev) := by
  have hnoticed : c.noticed = ev.isNotice := by rw [noticed, hcurrent]; rfl
  have hserved : ev.isNotice = false → ∀ life, Turn c undisturbed ({ c with current := none }.served life) :=
    fun hnot life => served_turn { c with current := none } hphase life rfl rfl (hnoticed.trans hnot).symm
      (hu.mpr (by simp [hnot]))
  have hstayed : ev.isNotice = false → Turn c undisturbed { c with current := none } := fun hnot =>
    .grown [] List.not_mem_nil (List.append_nil _).symm (List.append_nil _).symm (hnoticed.trans hnot).symm hphase
      (hu.mpr (by simp [hnot]))
  have hanswered : ev.isNotice = true → Turn c undisturbed { c with current := none, queue := c.queue ++ [.ownQuit] } :=
    fun hnot => .answered (hnoticed.trans hnot) rfl rfl rfl hphase (hu.trans (by simp [hnot]))
  cases ev with
  | closeServerTimer => exact hanswered rfl
  | closeClientTimer timer => exact hserved rfl _
  | event ev =>
    cases ev with
    | quit code => exact hstayed rfl
    | serverDisconnected => exact hanswered rfl
    | stopServer => exact .reentered rfl
    | other => exact hstayed rfl
    | server ev =>
      cases ev with
      | closeTimeout timer => exact hstayed rfl
      | destroy => exact hstayed rfl
      | _ => exact hserved rfl _

theorem step_turn (hphase : c.phase = .looping) (move : LoopMove) :
    Turn c (Undisturbed c move (c.step move)) (c.step move) := by
  obtain ⟨life, queue, current, expired, phase, asked⟩ := c
  obtain rfl : phase = .looping := hphase
  cases move with
  | addEvent ev =>
    refine .grown [.incoming ev] (by simp) rfl ?_ rfl rfl rfl
    simp only [step]
    cases h : (QueuedEvent.incoming ev).asks <;> simp [h]
  | getEvent e =>
    cases current with
    | some ev => exact .stayed rfl rfl
    | none =>
      cases queue with
      | nil => exact .stayed rfl (by simp [Undisturbed, undisturbed])
      | cons ev queue =>
        have hadded : ∀ n, ∀ ev ∈ List.replicate n (QueuedEvent.incoming .serverDisconnected),
            ev = .incoming .serverDisconnected := fun _ _ => List.eq_of_mem_replicate
        cases ev with
        | ownQuit =>
          have hu : ∀ t, Undisturbed ⟨life, .ownQuit :: queue, none, expired, .looping, asked⟩ (.getEvent e) t := by
            simp [Undisturbed, undisturbed, QueuedEvent.asks]
          exact .left .ownQuit queue _ rfl rfl (.inl ⟨rfl, hu _⟩) (hadded _) rfl rfl rfl
        | incoming ev =>
          cases ev with
          | quit code =>
            have hu : ∀ t, ¬ Undisturbed ⟨life, .incoming (.quit code) :: queue, none, expired, .looping, asked⟩
                (.getEvent e) t := by
              simp [Undisturbed, undisturbed, QueuedEvent.asks]
            exact .left _ queue _ rfl rfl (.inr ⟨⟨code, rfl⟩, hu _⟩) (hadded _) rfl rfl rfl
          | _ => exact .got _ (by simp) rfl rfl rfl rfl rfl (by simp [Undisturbed, undisturbed, QueuedEvent.asks])
  | expireCloseServer =>
    cases current with
    | some ev => exact .stayed rfl rfl
    | none =>
      simp only [step]
      split
      · rename_i h
        have hempty : queue = [] := by simpa using And.left (by simpa using h)
        exact .expired hempty hempty rfl rfl rfl
      · exact .stayed rfl rfl
  | expireCloseClient timer =>
    cases current with
    | some ev => exact .stayed rfl rfl
    | none =>
      simp only [step]
      split
      · rename_i h
        have hempty : queue = [] := by simpa using h
        exact .expired hempty hempty rfl rfl rfl
      · exact .stayed rfl rfl
  | dispatchEvent e =>
    cases current with
    | none => exact .stayed rfl rfl
    | some ev =>
      refine handle_turn (c := ⟨life, queue, some ev, expired, .looping, asked⟩) rfl rfl e ?_
      simp only [Undisturbed, undisturbed, Bool.or_eq_true, Bool.not_eq_true', List.all_eq_true]
      cases ev.isNotice <;> simp

/-- The loop will end with the `Quit` of somebody else or leave one of its own behind: when it
gets to the first one it has answered two notices, or another is waiting. -/
def Doomed : Bool → List QueuedEvent → Prop
  | _, [] => False
  | noticed, ev :: queue =>
    match ev with
    | .incoming (.quit _) => True
    | .ownQuit => noticed = true ∨ .ownQuit ∈ queue
    | .incoming .serverDisconnected => Doomed true queue
    | .incoming _ => Doomed noticed queue

private theorem Doomed.append {noticed : Bool} {queue : List QueuedEvent} (h : Doomed noticed queue)
    (added : List QueuedEvent) : Doomed noticed (queue ++ added) := by
  induction queue generalizing noticed with
  | nil => exact h.elim
  | cons ev queue ih =>
    cases ev with
    | ownQuit => exact h.imp id (List.mem_append_left added)
    | incoming ev =>
      cases ev with
      | quit code => trivial
      | _ => exact ih h

/-- What is added behind a `Quit` does not matter. -/
private theorem doomed_append_iff {noticed : Bool} {queue added : List QueuedEvent} (hmem : .ownQuit ∈ queue)
    (hown : .ownQuit ∉ added) : Doomed noticed (queue ++ added) ↔ Doomed noticed queue := by
  refine ⟨fun h => ?_, fun h => h.append added⟩
  induction queue generalizing noticed with
  | nil => cases hmem
  | cons ev queue ih =>
    cases ev with
    | ownQuit => exact h.imp id fun h => (List.mem_append.mp h).resolve_right hown
    | incoming ev =>
      have hrest : .ownQuit ∈ queue := (List.mem_cons.mp hmem).resolve_left (by simp)
      cases ev with
      | quit code => trivial
      | _ => exact ih hrest h

private theorem doomed_noticed (queue : List QueuedEvent) : Doomed true (queue ++ [.ownQuit]) := by
  induction queue with
  | nil => exact .inl rfl
  | cons ev queue ih =>
    cases ev with
    | ownQuit => exact .inl rfl
    | incoming ev =>
      cases ev with
      | quit code => trivial
      | _ => exact ih

private theorem Doomed.answered {queue : List QueuedEvent} (h : Doomed true queue) :
    Doomed false (queue ++ [.ownQuit]) := by
  induction queue with
  | nil => exact h.elim
  | cons ev queue ih =>
    cases ev with
    | ownQuit => exact .inr (List.mem_append_right queue (List.mem_singleton_self _))
    | incoming ev =>
      cases ev with
      | quit code => trivial
      | serverDisconnected => exact doomed_noticed queue
      | _ => exact ih h

/-- A handler adds its `Quit` to a queue that something in it will end or answer. -/
private theorem doomed_of_ends {queue : List QueuedEvent} (h : ¬ ∀ ev ∈ queue, ev.ends = false) :
    Doomed false (queue ++ [.ownQuit]) := by
  induction queue with
  | nil => exact absurd (fun ev hev => absurd hev List.not_mem_nil) h
  | cons ev queue ih =>
    rw [List.forall_mem_cons] at h
    cases ev with
    | ownQuit => exact .inr (List.mem_append_right queue (List.mem_singleton_self _))
    | incoming ev =>
      cases ev with
      | quit code => trivial
      | serverDisconnected => exact doomed_noticed queue
      | _ => exact ih fun hrest => h ⟨rfl, hrest⟩

private theorem not_doomed {queue : List QueuedEvent} (h : ∀ ev ∈ queue, ev.ends = false) :
    ¬ Doomed false (queue ++ [.ownQuit]) := by
  induction queue with
  | nil => simp [Doomed]
  | cons ev queue ih =>
    obtain ⟨hev, hrest⟩ := List.forall_mem_cons.mp h
    cases ev with
    | ownQuit => cases hev
    | incoming ev =>
      cases ev with
      | quit code => cases hev
      | serverDisconnected => cases hev
      | _ => exact ih hrest

private theorem doomed_got {ev : QueueEvent} (hquit : ∀ code, ev ≠ .quit code) (queue : List QueuedEvent) :
    Doomed false (.incoming ev :: queue) ↔ Doomed (CurrentEvent.event ev).isNotice queue := by
  cases ev with
  | quit code => exact absurd rfl (hquit code)
  | _ => exact Iff.rfl

private theorem foldl_stuck (hphase : c.phase ≠ .looping) (moves : List LoopMove) :
    moves.foldl step c = c ∧ EachStep Undisturbed c (runTrace step c moves) := by
  have hstep : ∀ move, c.step move = c := by
    intro move
    obtain ⟨life, queue, current, expired, phase, asked⟩ := c
    cases phase with
    | looping => exact absurd rfl hphase
    | _ => rfl
  have hu : ∀ move t, Undisturbed c move t := by
    intro move t
    obtain ⟨life, queue, current, expired, phase, asked⟩ := c
    cases phase with
    | looping => exact absurd rfl hphase
    | _ => rfl
  induction moves with
  | nil => exact ⟨rfl, trivial⟩
  | cons move moves ih =>
    rw [List.foldl_cons, runTrace, hstep]
    exact ⟨ih.1, hu move c, ih.2⟩

private theorem asks_added {added : List QueuedEvent} (h : ∀ ev ∈ added, ev = .incoming .serverDisconnected)
    (queue : List QueuedEvent) : (queue ++ added).filterMap QueuedEvent.asks = queue.filterMap QueuedEvent.asks ∧
      (.ownQuit ∈ queue ++ added ↔ .ownQuit ∈ queue) := by
  constructor
  · have hnone : added.filterMap QueuedEvent.asks = [] := by
      refine List.filterMap_eq_nil_iff.mpr fun ev hev => ?_
      rw [h ev hev]
      rfl
    rw [List.filterMap_append, hnone, List.append_nil]
  · rw [List.mem_append]
    exact or_iff_left fun hmem => by cases h _ hmem

private theorem asks_eaten (code : Option Int) (queue : List QueuedEvent) :
    queue.filterMap QueuedEvent.asks ≠ (.incoming (.quit code) :: queue).filterMap QueuedEvent.asks := by
  have hsome : (QueuedEvent.incoming (.quit code)).asks = some code := rfl
  rw [List.filterMap_cons_some hsome]
  exact fun h => List.cons_ne_self code _ h.symm

/-- After a turn in which the loop goes on all that others have asked for is still queued. -/
private theorem Turn.asked_eq {undisturbed : Prop} (h : Turn c undisturbed t)
    (hasked : c.queue.filterMap QueuedEvent.asks = c.asked) (hphase : t.phase = .looping) :
    t.queue.filterMap QueuedEvent.asks = t.asked := by
  cases h with
  | left ev rest added _ _ _ _ _ _ hreturned => cases hphase.symm.trans hreturned
  | reentered hreentered => cases hphase.symm.trans hreentered
  | grown added _ hqueue ht =>
    rw [hqueue, ht, List.filterMap_append, hasked]
  | expired hempty hqueue ht =>
    rw [hqueue, ht, ← hasked, hempty]
  | got ev hquit _ hqueue _ ht =>
    have hnone : (QueuedEvent.incoming ev).asks = none := by
      cases ev with
      | quit code => exact absurd rfl (hquit code)
      | _ => rfl
    rw [ht, ← hasked, hqueue, List.filterMap_cons_none hnone]
  | answered _ _ hqueue ht =>
    rw [hqueue, ht, List.filterMap_append, hasked]
    exact List.append_nil _

/-- A loop that is doomed does not keep the `Quit` events apart. -/
private theorem not_quitsKept_of_doomed (moves : List LoopMove) (hphase : c.phase = .looping)
    (hasked : c.queue.filterMap QueuedEvent.asks = c.asked) (hdoomed : Doomed c.noticed c.queue)
    (hreturned : (moves.foldl step c).phase = .returned) : ¬ (moves.foldl step c).QuitsKept := by
  induction moves generalizing c with
  | nil => cases hphase.symm.trans hreturned
  | cons move moves ih =>
    rw [List.foldl_cons] at hreturned ⊢
    have hturn := step_turn hphase move
    generalize c.step move = t at hturn hreturned
    have hnext : t.phase = .looping → Doomed t.noticed t.queue → ¬ (moves.foldl step t).QuitsKept :=
      fun ht hdoomed => ih ht (hturn.asked_eq hasked ht) hdoomed hreturned
    cases hturn with
    | left ev rest added hnoticed hqueue hends hadded ht hasked' hleft =>
      rw [(foldl_stuck (by rw [hleft]; decide) moves).1, QuitsKept, ht, (asks_added hadded rest).1,
        (asks_added hadded rest).2, hasked', ← hasked, hqueue]
      rw [hnoticed, hqueue] at hdoomed
      rcases hends with ⟨rfl, -⟩ | ⟨⟨code, rfl⟩, -⟩
      · exact fun hkept => hkept.2 (hdoomed.resolve_left Bool.false_ne_true)
      · exact fun hkept => asks_eaten code rest hkept.1
    | reentered hreentered =>
      rw [(foldl_stuck (by rw [hreentered]; decide) moves).1, hreentered] at hreturned
      cases hreturned
    | grown added hown hqueue _ hnoticed ht =>
      refine hnext ht ?_
      rw [hnoticed, hqueue]
      exact hdoomed.append added
    | expired hempty =>
      rw [hempty] at hdoomed
      exact hdoomed.elim
    | got ev hquit hnoticed hqueue hgot _ ht =>
      refine hnext ht ?_
      rw [hgot, ← doomed_got hquit, ← hqueue, ← hnoticed]
      exact hdoomed
    | answered hnoticed hanswered hqueue _ ht =>
      refine hnext ht ?_
      rw [hanswered, hqueue]
      exact (hnoticed ▸ hdoomed).answered

/-- While no turn is disturbed, a `Quit` that the loop has added is the first one in the queue. -/
private theorem quitsKept_iff_of_not_doomed (moves : List LoopMove) (hphase : c.phase = .looping)
    (hasked : c.queue.filterMap QueuedEvent.asks = c.asked) (hown : .ownQuit ∈ c.queue → ¬ Doomed c.noticed c.queue)
    (hreturned : (moves.foldl step c).phase = .returned) :
    (moves.foldl step c).QuitsKept ↔ EachStep Undisturbed c (runTrace step c moves) := by
  induction moves generalizing c with
  | nil => cases hphase.symm.trans hreturned
  | cons move moves ih =>
    rw [List.foldl_cons] at hreturned ⊢
    rw [runTrace, EachStep]
    have hturn := step_turn hphase move
    generalize hu : Undisturbed c move (c.step move) = undisturbed at hturn
    generalize c.step move = t at hturn hreturned
    have hkeeps := hturn.asked_eq hasked
    have hnext : t.phase = .looping → (.ownQuit ∈ t.queue → ¬ Doomed t.noticed t.queue) → undisturbed →
        ((moves.foldl step t).QuitsKept ↔ undisturbed ∧ EachStep Undisturbed t (runTrace step t moves)) :=
      fun ht hown hu => (ih ht (hkeeps ht) hown hreturned).trans (and_iff_right hu).symm
    cases hturn with
    | left ev rest added hnoticed hqueue hends hadded ht hasked' hleft =>
      obtain ⟨hstuck, heach⟩ := foldl_stuck (c := t) (by rw [hleft]; decide) moves
      rw [hstuck, QuitsKept, ht, (asks_added hadded rest).1, (asks_added hadded rest).2, hasked', ← hasked, hqueue]
      rcases hends with ⟨rfl, hu⟩ | ⟨⟨code, rfl⟩, hu⟩
      · refine iff_of_true ⟨(List.filterMap_cons_none rfl).symm, fun hmem => ?_⟩ ⟨hu, heach⟩
        refine hown (hqueue ▸ List.mem_cons_self) ?_
        rw [hqueue]
        exact .inr hmem
      · exact iff_of_false (fun hkept => asks_eaten code rest hkept.1) fun h => hu h.1
    | reentered hreentered =>
      rw [(foldl_stuck (by rw [hreentered]; decide) moves).1, hreentered] at hreturned
      cases hreturned
    | grown added hadded hqueue _ hnoticed ht hu =>
      refine hnext ht (fun hmem => ?_) hu
      rw [hqueue] at hmem ⊢
      have hmem := (List.mem_append.mp hmem).resolve_right hadded
      rw [hnoticed, doomed_append_iff hmem hadded]
      exact hown hmem
    | expired hempty hqueue _ ht hu =>
      refine hnext ht (fun hmem => ?_) hu
      rw [hqueue] at hmem
      cases hmem
    | got ev hquit hnoticed hqueue hgot _ ht hu =>
      refine hnext ht (fun hmem => ?_) hu
      rw [hgot, ← doomed_got hquit, ← hqueue, ← hnoticed]
      exact hown (hqueue ▸ List.mem_cons_of_mem _ hmem)
    | answered hnoticed hanswered hqueue _ ht hu =>
      by_cases hends : ∀ ev ∈ c.queue, ev.ends = false
      · refine hnext ht (fun _ => ?_) (hu.mpr hends)
        rw [hanswered, hqueue]
        exact not_doomed hends
      · refine iff_of_false ?_ fun h => hends (hu.mp h.1)
        refine not_quitsKept_of_doomed moves ht (hkeeps ht) ?_ hreturned
        rw [hanswered, hqueue]
        exact doomed_of_ends hends

/-- When the loop returns, the `Quit` events of others are all there and those of its own are
not, exactly if no turn was disturbed. -/
theorem quits_kept_iff (e : Platform) (life : ServerLife) (queue : List QueueEvent) (moves : List LoopMove)
    (hreturned : (moves.foldl step (closeServer e life queue)).phase = .returned) :
    (moves.foldl step (closeServer e life queue)).QuitsKept ↔
      EachStep Undisturbed (closeServer e life queue) (runTrace step (closeServer e life queue) moves) := by
  have hadded : ∀ n, ∀ ev ∈ List.replicate n (QueuedEvent.incoming .serverDisconnected),
      ev = .incoming .serverDisconnected := fun _ _ => List.eq_of_mem_replicate
  refine quitsKept_iff_of_not_doomed moves rfl (asks_added (hadded _) _).1 (fun hmem => ?_) hreturned
  have hown := (asks_added (hadded _) _).2.mp hmem
  simp at hown

/-- Somebody asks to quit while the loop waits. -/
def askedMeanwhile : List LoopMove :=
  [.getEvent .still, .dispatchEvent .still, .addEvent (.quit (some 3)), .getEvent .still]

theorem quits_kept_asked : (askedMeanwhile.foldl step
    (closeServer .still (.start .still Server.twoScreens ⟨0, ['a']⟩) [])).QuitsKept :=
  (quits_kept_iff .still (.start .still Server.twoScreens ⟨0, ['a']⟩) [] askedMeanwhile (by decide)).mpr
    (by decide)

/-- The last client has just gone when the server is stopped: its end is announced twice. -/
theorem quit_left_behind : ¬ ∀ (e : Platform) (life : ServerLife) (queue : List QueueEvent) (moves : List LoopMove),
    (moves.foldl step (closeServer e life queue)).phase = .returned →
      (moves.foldl step (closeServer e life queue)).QuitsKept := by
  intro h
  have hkept := h .still (.start .still Server.twoScreens ⟨0, ['a']⟩) [.serverDisconnected]
    [.getEvent .still, .dispatchEvent .still, .getEvent .still, .dispatchEvent .still, .getEvent .still]
    (by decide)
  exact hkept.2 List.mem_cons_self

end CloseServer
end Synergy
