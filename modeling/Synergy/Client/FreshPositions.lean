import Synergy.Client.ServerProxy
import Synergy.Lib.Trace
import Synergy.Server.ClientProxy

/-! A client and the server while they exchange shape reports, acknowledgements and motions
of the mouse; messages arrive in the order in which they were sent, in both directions. -/
namespace Synergy
open ProtocolUtil Synergy.Lib

/-- Called when the shape of the client's screen has changed. -/
def ProxyRun.onInfoChanged (a : Answers) (r : ProxyRun) : ProxyRun :=
  (r.update fun p => { p with ignoreMouse := true }).queryInfo a

/-- A position that an effect moves the client's cursor to. -/
def Effect.position : Effect → Option (Int × Int)
  | .call (.mouseMove x y) => some (x, y)
  | _ => none

def ProxyRun.positions (r : ProxyRun) : List (Int × Int) := r.effects.filterMap Effect.position

/-- A report under way to the server, with its number among all reports of the client. -/
structure ShapeReport where
  number : Nat
  shape : Int × Int × Int × Int
  cursorPos : Int × Int

/-- A message under way to the client. An acknowledgement goes with the number of the report
that it answers, a position with that of the report the server had taken over last. -/
inductive ServerMessage where
  | queryInfo
  | infoAck (report : Nat)
  | mouseMove (x y : Int) (report : Nat)
  | mouseRelativeMove (dx dy : Int)
  | leave
  deriving DecidableEq

namespace ServerMessage

def stamp : ServerMessage → Option Nat
  | infoAck n => some n
  | mouseMove _ _ n => some n
  | _ => none

def isMouseMove : ServerMessage → Bool
  | mouseMove _ _ _ => true
  | _ => false

end ServerMessage

/-- A position that the client's cursor was moved to: the report that the server had taken
over when it sent the position, and the reports that the client had sent by now. -/
structure AppliedPosition where
  position : Int × Int
  report : Nat
  reports : Nat
  deriving DecidableEq

/-- Both ends and what is under way between them. `handling` tells that the client is in the
middle of a batch; the numbers below it are those of reports: how many there are, the last one
that answered a query, the last one taken over, the last one acknowledged, and the one that the
position held back by the client goes with. -/
structure ShapeLink where
  client : ProxyRun
  server : ClientProxy
  toServer : List ShapeReport := []
  toClient : List ServerMessage := []
  handling : Bool := false
  reports : Nat := 0
  asked : Nat := 0
  accepted : Nat := 0
  acknowledged : Nat := 0
  held : Nat := 0
  applied : List AppliedPosition := []

inductive LinkEvent where
  | changeShape (a : Answers)
  | query
  | mouseMove (x y : Int)
  | mouseRelativeMove (dx dy : Int)
  | leave
  | receive (discarded : Nat)
  | handle (a : Answers)
  | endBatch

namespace ShapeLink

/-- The server's end asks for the shape when it is created. -/
def start (drop : Drop) (stream : IStream) (server : ClientProxy) : ShapeLink where
  client := ⟨{ drop := drop }, stream, [], none⟩
  server := server
  toClient := [.queryInfo]

variable (s : ShapeLink)

def send (m : ServerMessage) : ShapeLink := { s with toClient := s.toClient ++ [m] }

/-- The client has sent a report. -/
def report (client : ProxyRun) (a : Answers) : ShapeLink :=
  { s with
    client := client
    reports := s.reports + 1
    toServer := s.toServer ++ [⟨s.reports + 1, a.shape, a.cursorPos⟩] }

/-- The client's end has gone on and moved the cursor, to positions that go with report `n`. -/
def apply (client : ProxyRun) (n : Nat) : ShapeLink :=
  { s with
    client := client
    applied := s.applied ++ (client.positions.drop s.client.positions.length).map fun p => ⟨p, n, s.reports⟩ }

/-- The server takes in a report, and throws away what follows a bad one. -/
def receive (discarded : Nat) : ShapeLink :=
  match s.toServer with
  | [] => s
  | r :: rest =>
    let (x, y, w, h) := r.shape
    let (mx, my) := r.cursorPos
    match s.server.acceptInfo (int16 x) (int16 y) (int16 w) (int16 h) (int16 mx) (int16 my) with
    | (true, server) => { s with server := server, toServer := rest, accepted := r.number }.send (.infoAck r.number)
    | (false, server) => { s with server := server, toServer := rest.drop discarded }

def handleMessage (a : Answers) : ServerMessage → ShapeLink
  | .queryInfo => { s.report (s.client.queryInfo a) a with asked := s.reports + 1 }
  | .infoAck n => { s with client := s.client.infoAcknowledgment, acknowledged := n }
  | .mouseMove x y n =>
    let client := s.client.onMouseMove a (int16 x) (int16 y)
    { s.apply client n with held := if client.proxy.mouse.compressMouse then n else s.held }
  | .mouseRelativeMove dx dy => s.apply (s.client.onMouseRelativeMove a (int16 dx) (int16 dy)) s.held
  | .leave => s.apply s.client.leave s.held

/-- Batches are handled in one go: the shape does not change in the middle of one. -/
def step (s : ShapeLink) : LinkEvent → ShapeLink
  | .changeShape a => if s.handling then s else s.report (s.client.onInfoChanged a) a
  | .query => s.send .queryInfo
  | .mouseMove x y => s.send (.mouseMove x y s.accepted)
  | .mouseRelativeMove dx dy => s.send (.mouseRelativeMove dx dy)
  | .leave => s.send .leave
  | .receive discarded => s.receive discarded
  | .handle a =>
    match s.toClient with
    | [] => s
    | m :: rest => { s with toClient := rest, handling := true }.handleMessage a m
  | .endBatch => if s.handling then { s.apply s.client.endOfBatch s.held with handling := false } else s

/-- No position was applied that the server had sent before it took over the last report
that the client had sent by then, and once that one is acknowledged motion counts again. -/
structure UpToDate : Prop where
  applied : ∀ p ∈ s.applied, p.report = p.reports
  heard : s.acknowledged = s.reports → s.client.proxy.ignoreMouse = false

/-- An acknowledgement finds no later report under way; the server sends no position before
it has the answers to its queries, and no query finds a position held back. -/
def InTurn : LinkEvent → Prop
  | .handle _ =>
    match s.toClient with
    | .infoAck n :: _ => n = s.reports
    | .queryInfo :: _ => s.client.proxy.mouse.compressMouse = false
    | _ => True
  | .mouseMove _ _ => .queryInfo ∉ s.toClient ∧ s.asked ≤ s.accepted
  | _ => True

end ShapeLink
end Synergy

/-! When every position that moves the client's cursor was meant for the shape that the
client reported last. -/
namespace Synergy
open ProtocolUtil Synergy.Lib

namespace ProxyRun
variable (r : ProxyRun)

/-- What a handler leaves as it was when it neither holds a position back nor applies one. -/
structure Still (r r' : ProxyRun) : Prop where
  positions : r'.positions = r.positions
  ignoreMouse : r'.proxy.ignoreMouse = r.proxy.ignoreMouse
  compressMouse : r'.proxy.mouse.compressMouse = r.proxy.mouse.compressMouse

private theorem positions_call (c : ClientCall) :
    (r.call c).positions = r.positions ++ (Effect.position (.call c)).toList := by
  simp only [positions, call, List.filterMap_append]
  cases h : Effect.position (.call c) <;> simp [h]

private theorem positions_update (f : ServerProxy → ServerProxy) : (r.update f).positions = r.positions := by
  simp [positions, update, Effect.position]

private theorem positions_write (fmt : Bytes) (args : List Arg) : (r.write fmt args).positions = r.positions := by
  simp [positions, write, Effect.position]

private theorem still_queryInfo (a : Answers) : r.Still (r.queryInfo a) := by
  refine ⟨?_, rfl, rfl⟩
  unfold queryInfo
  simp only [positions_write, positions_call, Effect.position, Option.toList_none, List.append_nil]

private theorem still_onMouseRelativeMove (a : Answers) (dx dy : Int) : r.Still (r.onMouseRelativeMove a dx dy) := by
  unfold onMouseRelativeMove
  simp only
  repeat' split
  all_goals
    refine ⟨?_, rfl, rfl⟩
    simp only [positions_update, positions_call, Effect.position, Option.toList_none, List.append_nil]

/-- The position is held back, ignored or applied. -/
private theorem onMouseMove_cases (a : Answers) (x y : Int) :
    (r.onMouseMove a x y).proxy.ignoreMouse = r.proxy.ignoreMouse ∧
      ((r.onMouseMove a x y).positions = r.positions ∧ (r.onMouseMove a x y).proxy.mouse.compressMouse = true ∧
          (r.proxy.ignoreMouse = false ∨ r.proxy.mouse.compressMouse = true) ∨
        (r.onMouseMove a x y).positions = r.positions ∧ (r.onMouseMove a x y).proxy.mouse.compressMouse = false ∨
        (r.onMouseMove a x y).positions = r.positions ++ [(x, y)] ∧ r.proxy.ignoreMouse = false ∧
          (r.onMouseMove a x y).proxy.mouse.compressMouse = false) := by
  have hcall := positions_call r (.mouseMove x y)
  unfold onMouseMove
  cases hcompress : r.proxy.mouse.compressMouse with
  | true =>
    simp only [hcompress, Bool.not_true, Bool.and_false, Bool.false_and, Bool.false_eq_true, if_false, if_true]
    exact ⟨rfl, .inl ⟨positions_update r _, hcompress, .inr trivial⟩⟩
  | false =>
    cases hignore : r.proxy.ignoreMouse with
    | true =>
      simp only [hcompress, hignore, Bool.not_true, Bool.false_and, Bool.false_eq_true, if_false, if_true]
      exact ⟨trivial, .inr (.inl ⟨trivial, trivial⟩)⟩
    | false =>
      cases hready : a.isReady r.stream with
      | true =>
        refine ⟨hignore, .inl ⟨?_, rfl, .inl rfl⟩⟩
        simp only [Bool.not_false, Bool.and_self, if_true]
        split
        · rw [positions_update, positions_update]
        · rename_i hnot
          exact absurd rfl hnot
      | false =>
        simp only [hcompress, Bool.and_false, Bool.false_eq_true, if_false]
        exact ⟨hignore, .inr (.inr ⟨hcall, trivial, hcompress⟩)⟩

/-- The position that is held back is applied. -/
private theorem flushCompressedMouse_spec :
    r.flushCompressedMouse.proxy.ignoreMouse = r.proxy.ignoreMouse ∧
      r.flushCompressedMouse.proxy.mouse.compressMouse = false ∧
      (r.flushCompressedMouse.positions = r.positions ∨ r.proxy.mouse.compressMouse = true ∧
        r.flushCompressedMouse.positions = r.positions ++ [(r.proxy.mouse.xMouse, r.proxy.mouse.yMouse)]) := by
  unfold flushCompressedMouse
  cases hcompress : r.proxy.mouse.compressMouse with
  | true =>
    simp only [if_true]
    split
    · refine ⟨rfl, rfl, .inr ⟨trivial, ?_⟩⟩
      simp only [positions_update, positions_call, Effect.position, Option.toList_none, Option.toList_some,
        List.append_nil]
    · refine ⟨rfl, rfl, .inr ⟨trivial, ?_⟩⟩
      simp only [positions_update, positions_call, Effect.position, Option.toList_some]
  | false =>
    simp only [Bool.false_eq_true, if_false]
    split
    · refine ⟨rfl, hcompress, .inl ?_⟩
      simp only [positions_update, positions_call, Effect.position, Option.toList_none, List.append_nil]
    · exact ⟨rfl, hcompress, .inl rfl⟩

end ProxyRun

namespace ShapeLink
variable {s : ShapeLink}

/-- The order of reports, acknowledgements and positions, and what it says about the positions
that the client still has to see. -/
structure Ordered (s : ShapeLink) : Prop where
  stamps : (s.acknowledged :: s.toClient.filterMap ServerMessage.stamp).Pairwise (· ≤ ·)
  stamped : ∀ n ∈ s.acknowledged :: s.toClient.filterMap ServerMessage.stamp, n ≤ s.accepted
  numbers : (s.accepted :: s.toServer.map ShapeReport.number).Pairwise (· < ·)
  numbered : ∀ n ∈ s.accepted :: s.toServer.map ShapeReport.number, n ≤ s.reports
  queries : s.toClient.Pairwise fun a b => a = .queryInfo → b.isMouseMove = false
  answered : ∀ m ∈ s.toClient, m.isMouseMove = true → ∀ n ∈ m.stamp, s.asked ≤ n
  open_of : s.client.proxy.ignoreMouse = false → s.acknowledged = s.reports ∨ s.asked = s.reports
  heard : s.acknowledged = s.reports → s.client.proxy.ignoreMouse = false
  held : s.client.proxy.mouse.compressMouse = true →
    s.held = s.reports ∧ s.client.proxy.ignoreMouse = false ∧ s.handling = true
  applied : ∀ p ∈ s.applied, p.report = p.reports

theorem Ordered.upToDate (h : s.Ordered) : s.UpToDate := ⟨h.applied, h.heard⟩

private theorem ordered_start (drop : Drop) (stream : IStream) (server : ClientProxy) :
    (start drop stream server).Ordered where
  stamps := List.pairwise_singleton _ _
  stamped := by simp [start, ServerMessage.stamp]
  numbers := List.pairwise_singleton _ _
  numbered := by simp [start]
  queries := List.pairwise_singleton _ _
  answered := by simp [start, ServerMessage.isMouseMove]
  open_of _ := .inl rfl
  heard _ := rfl
  held h := absurd h (by simp [start])
  applied := by simp [start]

/-- The server may send what goes with its last report, but no position while a query of its
own is unanswered. -/
private theorem Ordered.send (h : s.Ordered) {m : ServerMessage} (hstamp : ∀ n ∈ m.stamp, n = s.accepted)
    (hmove : m.isMouseMove = true → .queryInfo ∉ s.toClient ∧ s.asked ≤ s.accepted) : (s.send m).Ordered where
  stamps := by
    unfold ShapeLink.send
    rw [List.filterMap_append, ← List.cons_append]
    refine List.pairwise_append.mpr ⟨h.stamps, ?_, ?_⟩
    · cases hm : m.stamp <;> simp [hm]
    · intro a ha b hb
      have hb : b = s.accepted := hstamp b (by simpa using hb)
      exact hb ▸ h.stamped a ha
  stamped n hn := by
    unfold ShapeLink.send at hn
    rw [List.filterMap_append, ← List.cons_append, List.mem_append] at hn
    rcases hn with hn | hn
    · exact h.stamped n hn
    · exact (hstamp n (by simpa using hn)).le
  numbers := h.numbers
  numbered := h.numbered
  queries := by
    refine List.pairwise_append.mpr ⟨h.queries, List.pairwise_singleton _ _, ?_⟩
    rintro a ha b hb rfl
    obtain rfl := List.mem_singleton.mp hb
    exact Bool.eq_false_iff.mpr fun hb => (hmove hb).1 ha
  answered m' hm' hmove' n hn := by
    rcases List.mem_append.mp hm' with hm' | hm'
    · exact h.answered m' hm' hmove' n hn
    · obtain rfl := List.mem_singleton.mp hm'
      exact hstamp n hn ▸ (hmove hmove').2
  open_of := h.open_of
  heard := h.heard
  held := h.held
  applied := h.applied

/-- A report leaves the channel, taken over by the server or not; others may go with it. -/
private theorem Ordered.taken (h : s.Ordered) {rest : List ShapeReport} {n : Nat} (server : ClientProxy)
    (hrest : rest.Sublist s.toServer) (hn : s.accepted ≤ n) (hreports : n ≤ s.reports)
    (hnext : ∀ r ∈ rest, n < r.number) : { s with server := server, toServer := rest, accepted := n }.Ordered :=
  { h with
    stamped := fun k hk => (h.stamped k hk).trans hn
    numbers := by
      refine List.pairwise_cons.mpr ⟨?_, (List.pairwise_cons.mp h.numbers).2.sublist (hrest.map _)⟩
      intro k hk
      obtain ⟨r, hr, rfl⟩ := List.mem_map.mp hk
      exact hnext r hr
    numbered := by
      intro k hk
      rcases List.mem_cons.mp hk with rfl | hk
      · exact hreports
      · exact h.numbered k (List.mem_cons_of_mem _ ((hrest.map _).mem hk)) }

private theorem Ordered.receive (h : s.Ordered) (discarded : Nat) : (s.receive discarded).Ordered := by
  unfold ShapeLink.receive
  cases hq : s.toServer with
  | nil => simpa using h
  | cons r rest =>
    have hnumbers := h.numbers
    have hnumbered := h.numbered
    rw [hq, List.map_cons] at hnumbers hnumbered
    obtain ⟨hfirst, hrest⟩ := List.pairwise_cons.mp hnumbers
    have hlater : s.accepted < r.number := hfirst _ List.mem_cons_self
    have hsub : rest.Sublist s.toServer := hq ▸ List.sublist_cons_self r rest
    cases hinfo : s.server.acceptInfo (int16 r.shape.1) (int16 r.shape.2.1) (int16 r.shape.2.2.1) (int16 r.shape.2.2.2)
        (int16 r.cursorPos.1) (int16 r.cursorPos.2) with
    | mk ok server =>
      cases ok with
      | true =>
        simp only [hinfo]
        refine (h.taken server hsub hlater.le ?_ ?_).send (fun n hn => (Option.some.inj hn).symm) (fun hm => nomatch hm)
        · exact hnumbered _ (List.mem_cons_of_mem _ List.mem_cons_self)
        · exact fun r' hr' => (List.pairwise_cons.mp hrest).1 _ (List.mem_map_of_mem hr')
      | false =>
        simp only [hinfo]
        refine h.taken server ((List.drop_sublist _ _).trans hsub) le_rfl (h.numbered _ List.mem_cons_self) ?_
        exact fun r' hr' => hfirst _ (List.mem_cons_of_mem _ (List.mem_map_of_mem (List.mem_of_mem_drop hr')))

/-- The client reports its shape, ignoring motion from now on unless it was asked to. -/
private theorem Ordered.report (h : s.Ordered) (a : Answers) {client : ProxyRun} {asked : Nat}
    (hcompress : client.proxy.mouse.compressMouse = false)
    (hasked : client.proxy.ignoreMouse = false → asked = s.reports + 1)
    (hanswered : ∀ m ∈ s.toClient, m.isMouseMove = true → ∀ n ∈ m.stamp, asked ≤ n) :
    { s.report client a with asked := asked }.Ordered :=
  have hreports : (s.report client a).toServer.map ShapeReport.number =
      s.toServer.map ShapeReport.number ++ [s.reports + 1] := List.map_append
  { h with
    numbers := by
      rw [hreports, ← List.cons_append]
      refine List.pairwise_append.mpr ⟨h.numbers, List.pairwise_singleton _ _, ?_⟩
      intro n hn n' hn'
      obtain rfl := List.mem_singleton.mp hn'
      exact Nat.lt_succ_of_le (h.numbered n hn)
    numbered := by
      intro n hn
      rw [hreports, ← List.cons_append, List.mem_append, List.mem_singleton] at hn
      rcases hn with hn | rfl
      · exact Nat.le_succ_of_le (h.numbered n hn)
      · exact le_rfl
    answered := hanswered
    open_of := fun hopen => .inr (hasked hopen)
    heard := by
      intro hack
      have hle := h.numbered _ List.mem_cons_self
      have hle' := h.stamped _ List.mem_cons_self
      have : s.acknowledged = s.reports + 1 := hack
      omega
    held := fun hheld => absurd (hcompress.symm.trans hheld) (by decide) }

/-- The positions that the client applies go with its last report. -/
private theorem Ordered.apply (h : s.Ordered) {client : ProxyRun} {n k : Nat} {l : List (Int × Int)}
    (hpositions : client.positions = s.client.positions ++ l) (hn : l ≠ [] → n = s.reports)
    (hignore : client.proxy.ignoreMouse = s.client.proxy.ignoreMouse)
    (hheld : client.proxy.mouse.compressMouse = true →
      k = s.reports ∧ s.client.proxy.ignoreMouse = false ∧ s.handling = true) :
    { s.apply client n with held := k }.Ordered :=
  { h with
    open_of := fun hopen => h.open_of (hignore ▸ hopen)
    heard := fun hack => hignore.trans (h.heard hack)
    held := fun hcompress => hignore.symm ▸ hheld hcompress
    applied := by
      intro p hp
      simp only [ShapeLink.apply, hpositions, List.drop_left] at hp
      rcases List.mem_append.mp hp with hp | hp
      · exact h.applied p hp
      · obtain ⟨q, hq, rfl⟩ := List.mem_map.mp hp
        exact hn (List.ne_nil_of_mem hq) }

/-- A message leaves the channel to the client. -/
private theorem Ordered.next (h : s.Ordered) {rest : List ServerMessage} (hrest : rest.Sublist s.toClient) :
    { s with toClient := rest, handling := true }.Ordered :=
  { h with
    stamps := h.stamps.sublist ((hrest.filterMap _).cons_cons _)
    stamped := fun n hn => h.stamped n (((hrest.filterMap _).cons_cons _).mem hn)
    queries := h.queries.sublist hrest
    answered := fun m hm => h.answered m (hrest.mem hm)
    held := fun hcompress => ⟨(h.held hcompress).1, (h.held hcompress).2.1, rfl⟩ }

private theorem Ordered.flushed (h : s.Ordered) {client : ProxyRun}
    (hignore : client.proxy.ignoreMouse = s.client.proxy.ignoreMouse)
    (hcompress : client.proxy.mouse.compressMouse = false)
    (hpositions : client.positions = s.client.positions ∨ s.client.proxy.mouse.compressMouse = true ∧
      client.positions = s.client.positions ++ [(s.client.proxy.mouse.xMouse, s.client.proxy.mouse.yMouse)]) :
    (s.apply client s.held).Ordered := by
  have hnone : client.proxy.mouse.compressMouse = true → s.held = s.reports ∧ s.client.proxy.ignoreMouse = false ∧
      s.handling = true := fun h => absurd (hcompress.symm.trans h) (by decide)
  rcases hpositions with hpositions | ⟨hheld, hpositions⟩
  · exact h.apply (hpositions.trans (List.append_nil _).symm) (absurd rfl) hignore hnone
  · exact h.apply hpositions (fun _ => (h.held hheld).1) hignore hnone

/-- A position reaches the client: unless motion is ignored, it goes with the last report. -/
private theorem Ordered.mouseMove (h : s.Ordered) (hhandling : s.handling = true) (a : Answers) (x y : Int) {n : Nat}
    (hfresh : s.client.proxy.ignoreMouse = false → n = s.reports) :
    (s.handleMessage a (.mouseMove x y n)).Ordered := by
  obtain ⟨hignore, ⟨hpositions, hcompress, hwas⟩ | ⟨hpositions, hcompress⟩ | ⟨hpositions, hopen, hcompress⟩⟩ :=
    ProxyRun.onMouseMove_cases s.client a (int16 x) (int16 y)
  · have hopen : s.client.proxy.ignoreMouse = false := hwas.elim id fun hheld => (h.held hheld).2.1
    refine h.apply (hpositions.trans (List.append_nil _).symm) (absurd rfl) hignore fun _ => ?_
    exact ⟨(if_pos hcompress).trans (hfresh hopen), hopen, hhandling⟩
  · refine h.apply (hpositions.trans (List.append_nil _).symm) (absurd rfl) hignore fun hheld => ?_
    exact absurd (hcompress.symm.trans hheld) (by decide)
  · refine h.apply hpositions (fun _ => hfresh hopen) hignore fun hheld => ?_
    exact absurd (hcompress.symm.trans hheld) (by decide)

private theorem Ordered.handle (h : s.Ordered) (a : Answers) (hturn : s.InTurn (.handle a)) :
    (s.step (.handle a)).Ordered := by
  unfold InTurn at hturn
  simp only [step]
  cases hq : s.toClient with
  | nil => simpa [hq] using h
  | cons m rest =>
    simp only [hq] at hturn ⊢
    have hnext := h.next (hq ▸ List.sublist_cons_self m rest)
    cases m with
    | queryInfo =>
      obtain ⟨-, hignore, hcompress⟩ := ProxyRun.still_queryInfo s.client a
      refine hnext.report a (hcompress.trans hturn) (fun _ => rfl) fun m hm hmove => ?_
      have hqueries := h.queries
      rw [hq] at hqueries
      have hstill := (List.pairwise_cons.mp hqueries).1 m hm rfl
      exact absurd (hstill.symm.trans hmove) (by decide)
    | infoAck n =>
      have hstamps := h.stamps
      have hstamped := h.stamped
      rw [hq] at hstamps hstamped
      exact { hnext with
        stamps := (List.pairwise_cons.mp hstamps).2
        stamped := fun k hk => hstamped k (List.mem_cons_of_mem _ hk)
        open_of := fun _ => .inl hturn
        heard := fun _ => rfl
        held := fun hheld => ⟨(h.held hheld).1, rfl, rfl⟩ }
    | mouseMove x y n =>
      refine hnext.mouseMove rfl a x y fun hopen => ?_
      have hmem : ServerMessage.mouseMove x y n ∈ s.toClient := hq ▸ List.mem_cons_self
      have hstamp : n ∈ s.toClient.filterMap ServerMessage.stamp := List.mem_filterMap.mpr ⟨_, hmem, rfl⟩
      have hle : n ≤ s.reports :=
        (h.stamped n (List.mem_cons_of_mem _ hstamp)).trans (h.numbered _ List.mem_cons_self)
      refine le_antisymm hle ?_
      rcases h.open_of hopen with hack | hasked
      · exact hack ▸ (List.pairwise_cons.mp h.stamps).1 n hstamp
      · exact hasked ▸ h.answered _ hmem rfl n rfl
    | mouseRelativeMove dx dy =>
      obtain ⟨hpositions, hignore, hcompress⟩ := ProxyRun.still_onMouseRelativeMove s.client a (int16 dx) (int16 dy)
      refine hnext.apply (k := s.held) (hpositions.trans (List.append_nil _).symm) (absurd rfl) hignore fun hheld => ?_
      exact hnext.held (hcompress.symm.trans hheld)
    | leave =>
      obtain ⟨hignore, hcompress, hpositions⟩ := ProxyRun.flushCompressedMouse_spec s.client
      have hleave : s.client.leave.positions = s.client.flushCompressedMouse.positions := by
        rw [ProxyRun.leave, ProxyRun.positions_call]
        exact List.append_nil _
      exact hnext.flushed hignore hcompress (by rwa [hleave])

private theorem Ordered.endBatch (h : s.Ordered) : (s.step .endBatch).Ordered := by
  simp only [step]
  split
  · obtain ⟨r, hr, hsame⟩ : ∃ r : ProxyRun, s.client.endOfBatch = r.flushCompressedMouse ∧ s.client.Still r ∧
        r.proxy.mouse = s.client.proxy.mouse := by
      refine ⟨_, rfl, ?_⟩
      split
      · exact ⟨⟨(ProxyRun.positions_write _ _ _).trans (ProxyRun.positions_update _ _), rfl, rfl⟩, rfl⟩
      · exact ⟨⟨rfl, rfl, rfl⟩, rfl⟩
    obtain ⟨⟨hstill, hopen, -⟩, hmouse⟩ := hsame
    obtain ⟨hignore, hcompress, hpositions⟩ := ProxyRun.flushCompressedMouse_spec r
    rw [← hr] at hignore hcompress hpositions
    rw [hstill, hmouse] at hpositions
    have hflushed := h.flushed (hignore.trans hopen) hcompress hpositions
    exact { hflushed with held := fun hheld => absurd (hcompress.symm.trans hheld) (by decide) }
  · exact h

/-- What is in turn keeps the order. -/
private theorem Ordered.step (h : s.Ordered) (ev : LinkEvent) (hturn : s.InTurn ev) : (s.step ev).Ordered := by
  cases ev with
  | changeShape a =>
    simp only [ShapeLink.step]
    split
    · exact h
    · rename_i hhandling
      have hcompress : s.client.proxy.mouse.compressMouse = false :=
        Bool.eq_false_iff.mpr fun hheld => hhandling (h.held hheld).2.2
      exact h.report a hcompress (fun hopen => nomatch hopen) h.answered
  | query => exact h.send (fun n hn => nomatch hn) fun hm => nomatch hm
  | mouseMove x y => exact h.send (fun n hn => (Option.some.inj hn).symm) fun _ => hturn
  | mouseRelativeMove dx dy => exact h.send (fun n hn => nomatch hn) fun hm => nomatch hm
  | leave => exact h.send (fun n hn => nomatch hn) fun hm => nomatch hm
  | receive discarded => exact h.receive discarded
  | handle a => exact h.handle a hturn
  | endBatch => exact h.endBatch

/-- In a run whose steps are all in turn, every position that the client applies was sent after
the server had taken over the last report that the client had sent by then, and motion counts
again once the last report is acknowledged. -/
theorem positions_upToDate (drop : Drop) (stream : IStream) (server : ClientProxy) (events : List LinkEvent)
    (hturn : EachStep (fun s ev _ => s.InTurn ev) (start drop stream server)
      (runTrace step (start drop stream server) events)) :
    Always UpToDate (runTrace step (start drop stream server) events) := by
  have hordered : Always Ordered (runTrace step (start drop stream server) events) := by
    refine Trace.always Ordered ?_ (trace_runTrace step _ events) (ordered_start drop stream server) hturn
    rintro s ev t h hturn rfl
    exact h.step ev hturn
  exact fun x hx => (hordered x hx).upToDate

def noDrop : Drop := { receiver := { options := { dropDirectory := [] } }, files := fun _ => none }

/-- A connection between fresh ends. -/
def freshLink : ShapeLink := start noDrop [] { version := .v1_8, maximumClipboardSizeBytes := 0 }

/-- The answers of a client with a screen of the given width, which has read all its input. -/
def screenOf (width : Int) : Answers := { shape := (0, 0, width, 100), isReady := fun _ => false }

/-- The shape is reported on request; then it changes, and a position is sent. -/
def oneChange : List LinkEvent :=
  [.handle (screenOf 100), .endBatch, .receive 0, .handle (screenOf 100), .endBatch, .changeShape (screenOf 200),
    .receive 0, .mouseMove 150 50, .handle (screenOf 200), .handle (screenOf 200), .endBatch]

theorem positions_upToDate_oneChange : Always UpToDate (runTrace step freshLink oneChange) :=
  positions_upToDate noDrop [] _ oneChange
    ⟨rfl, trivial, trivial, rfl, trivial, trivial, trivial, ⟨by decide, by decide⟩, rfl, trivial, trivial, trivial⟩

/-- The shape changes twice before the first report is answered, and a position is sent then. -/
def twoChanges : List LinkEvent :=
  [.handle (screenOf 100), .endBatch, .receive 0, .handle (screenOf 100), .endBatch, .changeShape (screenOf 200),
    .changeShape (screenOf 50), .receive 0, .mouseMove 150 50, .handle (screenOf 50), .handle (screenOf 50)]

/-- The acknowledgement of the first report makes the client apply a position that was meant for
a screen wider than the one it has reported since. -/
theorem positions_outdated_twoChanges : ¬ ∀ (drop : Drop) (stream : IStream) (server : ClientProxy)
    (events : List LinkEvent), Always UpToDate (runTrace step (start drop stream server) events) := by
  intro h
  have hlast := h noDrop [] { version := .v1_8, maximumClipboardSizeBytes := 0 } twoChanges
    (.handle (screenOf 50), twoChanges.foldl step freshLink) (by simp [runTrace, twoChanges, freshLink])
  exact absurd (hlast.applied ⟨(150, 50), 2, 3⟩ (by decide)) (by decide)

end ShapeLink
end Synergy
