import Synergy.Client.ClientLife
import Synergy.Client.ClientStages

/-! What holds of a client whose attempts come one at a time, and how an attempt begins, goes on
and ends. -/
namespace Synergy
namespace ClientLife
open Resources
variable {c t : ClientLife}

/-- Each attempt before has had its end, and the last one has it or is under way. -/
structure Kept (c : ClientLife) : Prop where
  stage : Stage c.useSecureNetwork c.resources
  lookups : ∀ l ∈ c.lookups, l.generation ≤ c.resolveGeneration ∧
    (l.generation = c.resolveGeneration → l.hostname = c.target)
  once : (c.lookups.map Lookup.generation).Nodup
  named : ∀ l ∈ c.lookups, l.hostname ≠ []
  resolved : c.resolvedIps ≠ [] → c.resolvedFor ≠ []
  quiet : c.lookingUp = true → c.resources.stream = none ∧ c.suspended = false
  suspended : c.suspended = true → c.resources.stream = none
  addresses : c.borrowed = false
  hello : c.misread = false
  settled : c.settled = true
  ends : 0 < c.begun → c.ends = if c.pending then 0 else 1
  began : c.pending = true → 0 < c.begun

private theorem card_toFinset_le (o : Option Nat) : o.toFinset.card ≤ 1 := by
  cases o <;> simp

theorem Kept.oneAttempt (h : Kept c) : c.OneAttempt := by
  obtain ⟨st, tm, sv, ka, reg, hat⟩ := h.stage.at
  refine ⟨?_, ?_, ?_, h.stage.serverStream, hat.asserts,
    fun type => ⟨fun n hne => ?_, fun n hne => ?_, fun n hne => ?_⟩, h.addresses, h.hello, h.settled, h.ends⟩
  · rw [hat.streams]
    exact card_toFinset_le st
  · rw [hat.timers]
    exact card_toFinset_le tm
  · rw [hat.proxies]
    exact card_toFinset_le sv
  · rw [hat.streamHandlers] at hne
    rw [hat.streams, Option.mem_toFinset]
    by_contra hn
    exact hne (if_neg hn)
  · rw [hat.timerHandlers] at hne
    rw [hat.timers, Option.mem_toFinset]
    by_contra hn
    exact hne (if_neg fun hand => hn hand.1)
  · rw [hat.keepAliveHandlers] at hne
    rw [hat.keepAliveTimers, Option.mem_toFinset]
    by_contra hn
    exact hne (if_neg fun hand => hn hand.1)

theorem kept_start (useSecureNetwork : Bool) (hostname : Str) : Kept (start useSecureNetwork hostname) := by
  refine ⟨.idle initial_at, ?_, List.nodup_nil, ?_, fun h => absurd rfl h, fun h => ?_, fun h => ?_, rfl, rfl, rfl,
    fun h => ?_, fun h => ?_⟩
  · exact fun l hl => absurd hl List.not_mem_nil
  · exact fun l hl => absurd hl List.not_mem_nil
  all_goals cases h

theorem not_oneAttempt (h : Leaves c.resources) : ¬ c.OneAttempt := by
  obtain ⟨n, hhandler, hdeleted⟩ := h
  exact fun hone => hdeleted ((hone.handlers .dataSocketSecureConnected).1 n hhandler)

/-- Neither the attempts nor the lookups and what they have brought change. -/
structure SameHistory (c t : ClientLife) : Prop where
  secure : t.useSecureNetwork = c.useSecureNetwork
  lookups : t.lookups = c.lookups
  resolvedIps : t.resolvedIps = c.resolvedIps
  resolvedFor : t.resolvedFor = c.resolvedFor
  target : t.target = c.target
  begun : t.begun = c.begun
  settled : t.settled = c.settled
  borrowed : t.borrowed = c.borrowed
  misread : t.misread = c.misread

theorem lookingUp_eq_false : c.lookingUp = false ↔ ∀ l ∈ c.lookups, l.generation ≠ c.resolveGeneration := by
  simp [lookingUp]

theorem Kept.not_lookingUp (h : Kept c) (hstream : c.resources.stream ≠ none) : c.lookingUp = false := by
  cases hlook : c.lookingUp with
  | false => rfl
  | true => exact absurd (h.quiet hlook).1 hstream

theorem Kept.ends_zero (h : Kept c) (hpending : c.pending = true) (hbegun : 0 < c.begun) : c.ends = 0 := by
  rw [h.ends hbegun, hpending]
  rfl

theorem Kept.ends_one (h : Kept c) (hpending : c.pending = false) (hbegun : 0 < c.begun) : c.ends = 1 := by
  rw [h.ends hbegun, hpending]
  rfl

/-- The attempt is over, nothing is left of it, and nobody waits for a lookup. -/
theorem Kept.ended (h : Kept c) (hsame : SameHistory c t) {reg : EventTypes → Option Handler}
    (hat : At t.resources none none none none reg) (hlook : t.lookingUp = false)
    (hgeneration : c.resolveGeneration ≤ t.resolveGeneration) (hends : 0 < c.begun → t.ends = 1) : Kept t := by
  have hpending : t.pending = false := by rw [pending, hat.stream, hlook]; rfl
  constructor
  case stage => exact .idle hat.idle
  case lookups =>
    intro l hl
    refine ⟨?_, fun heq => absurd heq (lookingUp_eq_false.mp hlook l hl)⟩
    exact (h.lookups l (hsame.lookups ▸ hl)).1.trans hgeneration
  case once => exact hsame.lookups ▸ h.once
  case named => exact hsame.lookups ▸ h.named
  case resolved =>
    rw [hsame.resolvedIps, hsame.resolvedFor]
    exact h.resolved
  case quiet => exact fun hnot => by cases hnot.symm.trans hlook
  case suspended => exact fun _ => hat.stream
  case addresses => exact hsame.borrowed.trans h.addresses
  case hello => exact hsame.misread.trans h.hello
  case settled => exact hsame.settled.trans h.settled
  case ends =>
    intro hbegun
    rw [hpending]
    exact hends (hsame.begun ▸ hbegun)
  case began => exact fun hnot => by cases hnot.symm.trans hpending

/-- The attempt goes on with its stream. -/
theorem Kept.continued (h : Kept c) (hsame : SameHistory c t) (hstage : Stage c.useSecureNetwork t.resources)
    (hstream : t.resources.stream = c.resources.stream) (hsome : c.resources.stream ≠ none)
    (hgeneration : t.resolveGeneration = c.resolveGeneration) (hsuspended : t.suspended = c.suspended)
    (hends : t.ends = c.ends) : Kept t := by
  have hlook : t.lookingUp = false := by
    rw [lookingUp, hsame.lookups, hgeneration]
    exact h.not_lookingUp hsome
  have hpending : t.pending = c.pending := by
    rw [pending, pending, hstream, hlook, h.not_lookingUp hsome]
  constructor
  case stage => exact hsame.secure ▸ hstage
  case lookups =>
    rw [hsame.lookups, hgeneration, hsame.target]
    exact h.lookups
  case once => exact hsame.lookups ▸ h.once
  case named => exact hsame.lookups ▸ h.named
  case resolved =>
    rw [hsame.resolvedIps, hsame.resolvedFor]
    exact h.resolved
  case quiet => exact fun hnot => by cases hnot.symm.trans hlook
  case suspended => exact fun hnot => hstream.trans (h.suspended (hsuspended ▸ hnot))
  case addresses => exact hsame.borrowed.trans h.addresses
  case hello => exact hsame.misread.trans h.hello
  case settled => exact hsame.settled.trans h.settled
  case ends =>
    rw [hsame.begun, hends, hpending]
    exact h.ends
  case began =>
    rw [hsame.begun, hpending]
    exact h.began

theorem Kept.pending_of_stream {n : Nat} (hstream : c.resources.stream = some n) : c.pending = true := by
  rw [pending, hstream]
  rfl

/-- An event of the stream that ends the attempt. -/
theorem Kept.streamEnded (h : Kept c) (hsame : SameHistory c t) {n : Nat} (hstream : c.resources.stream = some n)
    {reg : EventTypes → Option Handler} (hat : At t.resources none none none none reg)
    (hgeneration : t.resolveGeneration = c.resolveGeneration) (hends : t.ends = c.ends + 1) : Kept t := by
  refine h.ended hsame hat ?_ hgeneration.ge fun hbegun => ?_
  · rw [lookingUp, hsame.lookups, hgeneration]
    exact h.not_lookingUp (by rw [hstream]; exact Option.some_ne_none n)
  · rw [hends, h.ends_zero (Kept.pending_of_stream hstream) hbegun]

/-- An attempt has begun, and there is nothing yet that will end it. -/
structure Beginning (c : ClientLife) : Prop where
  idle : At c.resources none none none none fun _ => none
  lookups : ∀ l ∈ c.lookups, l.generation ≤ c.resolveGeneration
  once : (c.lookups.map Lookup.generation).Nodup
  named : ∀ l ∈ c.lookups, l.hostname ≠ []
  resolved : c.resolvedIps ≠ [] → c.resolvedFor ≠ []
  quiet : c.lookingUp = false
  awake : c.suspended = false
  addresses : c.borrowed = false
  hello : c.misread = false
  settled : c.settled = true
  ends : c.ends = 0
  begun : 0 < c.begun

/-- It fails at once. -/
theorem Beginning.ended (h : Beginning c) {r : Resources} {reg : EventTypes → Option Handler}
    (hat : At r none none none none reg) : Kept { c with resources := r, ends := c.ends + 1 } := by
  have hlook : ClientLife.lookingUp { c with resources := r, ends := c.ends + 1 } = false := h.quiet
  have hpending : ClientLife.pending { c with resources := r, ends := c.ends + 1 } = false := by
    rw [pending, hlook, hat.stream]
    rfl
  refine ⟨.idle hat.idle, fun l hl => ⟨h.lookups l hl, ?_⟩, h.once, h.named, h.resolved, ?_, fun _ => hat.stream,
    h.addresses, h.hello, h.settled, fun _ => ?_, fun hnot => by cases hnot.symm.trans hpending⟩
  · exact fun heq => absurd heq (lookingUp_eq_false.mp h.quiet l hl)
  · exact fun hnot => by cases hnot.symm.trans hlook
  · rw [hpending]
    exact congrArg (· + 1) h.ends

theorem Beginning.connecting (h : Beginning c) {r : Resources} (hstage : Stage c.useSecureNetwork r)
    (hstream : r.stream ≠ none) : Kept { c with resources := r } := by
  have hlook : ClientLife.lookingUp { c with resources := r } = false := h.quiet
  have hpending : ClientLife.pending { c with resources := r } = true := by
    rw [pending, Option.isSome_iff_ne_none.mpr hstream]
    rfl
  refine ⟨hstage, fun l hl => ⟨h.lookups l hl, ?_⟩, h.once, h.named, h.resolved, ?_, ?_,
    h.addresses, h.hello, h.settled, fun _ => ?_, fun _ => h.begun⟩
  · exact fun heq => absurd heq (lookingUp_eq_false.mp h.quiet l hl)
  · exact fun hnot => by cases hnot.symm.trans hlook
  · exact fun hnot => by cases hnot.symm.trans h.awake
  · rw [hpending]
    exact h.ends

/-- The addresses that are used are those of the host, if there are any. -/
theorem Beginning.continueConnect (h : Beginning c) (hown : c.resolvedIps ≠ [] → c.resolvedFor = c.target)
    {dial : Dial} (hdial : c.useSecureNetwork = true → dial ≠ .notConnecting) : Kept (c.continueConnect dial) := by
  have hborrowed : (c.borrowed || (!c.resolvedIps.isEmpty && c.resolvedFor ≠ c.target)) = c.borrowed := by
    cases hips : c.resolvedIps with
    | nil => simp
    | cons ip ips => simp [hown (by rw [hips]; exact List.cons_ne_nil ip ips)]
  unfold ClientLife.continueConnect
  rw [hborrowed]
  obtain ⟨n, m, hdialed⟩ := h.idle.dialed c.useSecureNetwork
  cases dial with
  | noStream => exact h.ended (h.idle.connectFailed fun _ _ _ => rfl)
  | connecting =>
    refine h.connecting (.connecting n m hdialed) ?_
    rw [hdialed.stream]
    exact Option.some_ne_none n
  | notConnecting =>
    have hplain : c.useSecureNetwork = false := Bool.eq_false_iff.mpr fun hsecure => hdial hsecure rfl
    refine h.ended (hdialed.connectFailed fun type h1 h2 => ?_)
    cases type <;> simp_all [connectingHandlers]

/-- A secure stream that fails at once leaves its handler. -/
theorem Beginning.leaves (h : Beginning c) (hsecure : c.useSecureNetwork = true) :
    Leaves (c.continueConnect .notConnecting).resources := by
  obtain ⟨n, m, hdialed⟩ := h.idle.dialed c.useSecureNetwork
  have hstage : Stage true ((c.resources.openStream.setupConnecting c.useSecureNetwork).setupTimer) :=
    .connecting n m (hsecure ▸ hdialed)
  exact (hstage.secureStream hdialed.stream).cleanupTimer.cleanupConnecting.cleanupStream

theorem Beginning.lookUp (h : Beginning c) {lookup : Lookup} (hnew : lookup.generation = c.resolveGeneration + 1)
    (htarget : lookup.hostname = c.target) (hname : c.target ≠ []) :
    Kept { c with resolveGeneration := c.resolveGeneration + 1, lookups := c.lookups ++ [lookup] } := by
  generalize ht : ({ c with
    resolveGeneration := c.resolveGeneration + 1, lookups := c.lookups ++ [lookup] } : ClientLife) = t
  have hgeneration : t.resolveGeneration = c.resolveGeneration + 1 := by rw [← ht]
  have hlookups : t.lookups = c.lookups ++ [lookup] := by rw [← ht]
  have hresources : t.resources = c.resources := by rw [← ht]
  have hlook : t.lookingUp = true := by
    rw [lookingUp, hlookups, hgeneration, List.any_append]
    simp [hnew]
  have hpending : t.pending = true := by rw [pending, hlook, Bool.or_true]
  have hmem : ∀ l ∈ t.lookups, l ∈ c.lookups ∨ l = lookup := by
    intro l hl
    rw [hlookups] at hl
    exact (List.mem_append.mp hl).imp id List.mem_singleton.mp
  constructor
  case stage => rw [hresources]; exact .idle h.idle
  case lookups =>
    intro l hl
    rw [hgeneration]
    rcases hmem l hl with hold | rfl
    · have hle := h.lookups l hold
      exact ⟨Nat.le_succ_of_le hle, fun heq => by omega⟩
    · exact ⟨hnew.le, fun _ => by rw [← ht, htarget]⟩
  case once =>
    rw [hlookups, List.map_append, List.map_singleton]
    refine List.nodup_append.mpr ⟨h.once, List.nodup_singleton _, ?_⟩
    intro g hg g' hg'
    obtain ⟨l, hl, rfl⟩ := List.mem_map.mp hg
    rw [List.mem_singleton.mp hg', hnew]
    exact Nat.ne_of_lt (Nat.lt_succ_of_le (h.lookups l hl))
  case named =>
    intro l hl
    rcases hmem l hl with hold | rfl
    · exact h.named l hold
    · exact htarget ▸ hname
  case resolved => rw [← ht]; exact h.resolved
  case quiet => exact fun _ => ⟨by rw [hresources]; exact h.idle.stream, by rw [← ht]; exact h.awake⟩
  case suspended => exact fun _ => by rw [hresources]; exact h.idle.stream
  case addresses => rw [← ht]; exact h.addresses
  case hello => rw [← ht]; exact h.hello
  case settled => rw [← ht]; exact h.settled
  case ends =>
    intro _
    rw [hpending, ← ht]
    exact h.ends
  case began => exact fun _ => by rw [← ht]; exact h.begun

/-- The attempt that `connect` begins. -/
def toBegin (c : ClientLife) : ClientLife :=
  { c with
    begun := c.begun + 1
    ends := 0
    settled := c.settled && (c.begun = 0 || c.ends = 1)
    target := c.hostname }

theorem connect_eq (hstream : c.resources.stream = none) (hawake : c.suspended = false) (addressIndex : Nat)
    (dial : Dial) : c.connect addressIndex dial = if c.hostname.isEmpty then c.toBegin.continueConnect dial
      else { c.toBegin with
        resolveGeneration := c.resolveGeneration + 1
        lookups := c.lookups ++ [⟨c.resolveGeneration + 1, addressIndex, c.hostname⟩] } :=
  (if_neg (by rw [hstream]; exact Bool.false_ne_true)).trans (if_neg (by rw [hawake]; exact Bool.false_ne_true))

theorem Kept.begin (h : Kept c) (hstream : c.resources.stream = none) (hawake : c.suspended = false)
    (hlook : c.lookingUp = false) : Beginning c.toBegin := by
  have hpending : c.pending = false := by rw [pending, hstream, hlook]; rfl
  have hidle := h.stage.at_idle hstream
  have hsettled : (c.settled && (c.begun = 0 || c.ends = 1)) = true := by
    rw [h.settled, Bool.true_and]
    rcases Nat.eq_zero_or_pos c.begun with hzero | hpos
    · simp [hzero]
    · simp [h.ends_one hpending hpos]
  exact ⟨hidle, fun l hl => (h.lookups l hl).1, h.once, h.named, h.resolved, hlook, hawake, h.addresses, h.hello,
    hsettled, rfl, Nat.succ_pos _⟩

theorem continueConnect_settled (dial : Dial) : (c.continueConnect dial).settled = c.settled := by
  cases dial <;> rfl

theorem continueConnect_borrowed (dial : Dial) : (c.continueConnect dial).borrowed =
    (c.borrowed || (!c.resolvedIps.isEmpty && c.resolvedFor ≠ c.target)) := by
  cases dial <;> rfl

/-- What these hold has nothing to do with the attempts. -/
theorem Kept.marked (h : Kept c) (hostname : Str) (ready connectOnResume : Bool) :
    Kept { c with hostname := hostname, ready := ready, connectOnResume := connectOnResume } :=
  ⟨h.stage, h.lookups, h.once, h.named, h.resolved, h.quiet, h.suspended, h.addresses, h.hello, h.settled,
    h.ends, h.began⟩

/-- The answer that the client waits for. -/
theorem Kept.answered (h : Kept c) {i : Nat} {answered : Lookup} (hanswered : c.lookups[i]? = some answered)
    (hcurrent : answered.generation = c.resolveGeneration) :
    Beginning { c with lookups := c.lookups.eraseIdx i } := by
  have hmem : answered ∈ c.lookups := List.mem_of_getElem? hanswered
  have hlook : c.lookingUp = true := List.any_eq_true.mpr ⟨answered, hmem, by simpa using hcurrent⟩
  have hpending : c.pending = true := by rw [pending, hlook, Bool.or_true]
  have hold : ∀ l ∈ c.lookups.eraseIdx i, l ∈ c.lookups := fun l hl => List.mem_of_mem_eraseIdx hl
  have hidle := h.stage.at_idle (h.quiet hlook).1
  refine ⟨hidle, fun l hl => (h.lookups l (hold l hl)).1, ?_, fun l hl => h.named l (hold l hl), h.resolved, ?_,
    (h.quiet hlook).2, h.addresses, h.hello, h.settled, h.ends_zero hpending (h.began hpending), h.began hpending⟩
  · exact h.once.sublist ((List.eraseIdx_sublist c.lookups i).map Lookup.generation)
  · refine lookingUp_eq_false.mpr fun l hl heq => ?_
    obtain ⟨j, hj, hl⟩ := List.mem_eraseIdx_iff_getElem?.mp hl
    have hsame : (c.lookups.map Lookup.generation)[j]? = (c.lookups.map Lookup.generation)[i]? := by
      rw [List.getElem?_map, List.getElem?_map, hl, hanswered, Option.map_some, Option.map_some, hcurrent]
      exact congrArg some heq
    have hlt : j < (c.lookups.map Lookup.generation).length := by
      rw [List.length_map]
      exact (List.getElem?_eq_some_iff.mp hl).1
    exact hj ((List.getElem?_inj hlt h.once).mp hsame)

/-- An answer that comes too late. -/
theorem Kept.unheard (h : Kept c) {i : Nat} {answered : Lookup} (hanswered : c.lookups[i]? = some answered)
    (hlate : answered.generation ≠ c.resolveGeneration ∨ c.lookingUp = false) :
    Kept { c with lookups := c.lookups.eraseIdx i } := by
  have hold : ∀ l ∈ c.lookups.eraseIdx i, l ∈ c.lookups := fun l hl => List.mem_of_mem_eraseIdx hl
  have hlook : ClientLife.lookingUp { c with lookups := c.lookups.eraseIdx i } = c.lookingUp := by
    cases hbefore : c.lookingUp with
    | false => exact lookingUp_eq_false.mpr fun l hl => lookingUp_eq_false.mp hbefore l (hold l hl)
    | true =>
      obtain ⟨l, hl, hcurrent⟩ := List.any_eq_true.mp hbefore
      obtain ⟨j, hj⟩ := List.getElem?_of_mem hl
      refine List.any_eq_true.mpr ⟨l, List.mem_eraseIdx_iff_getElem?.mpr ⟨j, fun hji => ?_, hj⟩, hcurrent⟩
      have hsame : l = answered := Option.some.inj (hj.symm.trans (hji ▸ hanswered))
      rw [hbefore] at hlate
      exact hlate.elim (fun hne => hne (hsame ▸ by simpa using hcurrent)) fun hnot => by cases hnot
  have hpending : ClientLife.pending { c with lookups := c.lookups.eraseIdx i } = c.pending := by
    rw [pending, pending, hlook]
  refine ⟨h.stage, fun l hl => h.lookups l (hold l hl), ?_, fun l hl => h.named l (hold l hl), h.resolved, ?_,
    h.suspended, h.addresses, h.hello, h.settled, ?_, ?_⟩
  · exact h.once.sublist ((List.eraseIdx_sublist c.lookups i).map Lookup.generation)
  · rw [hlook]
    exact h.quiet
  · rw [hpending]
    exact h.ends
  · rw [hpending]
    exact h.began

end ClientLife
end Synergy
