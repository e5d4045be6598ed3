import Synergy.Clipboard.AtomProperties

/-! A request for several targets, against the single requests for its pairs. -/
namespace Synergy
open Synergy.Lib
namespace XWindowsClipboard
variable {d : Display} {requestor : Window} {time : Nat}

/-- The answers to single requests for the complete pairs, one after the other. -/
def answersTo (d : Display) (requestor : Window) (time : Nat) : XWindowsClipboard → List Atom → List Answer
  | c, target :: property :: more =>
    let answer := c.addSimpleRequest d requestor target time property
    answer :: answersTo d requestor time answer.clipboard more
  | _, _ => []

/-- The clipboard after the answers. -/
def after (c : XWindowsClipboard) (answers : List Answer) : XWindowsClipboard :=
  match answers.getLast? with
  | some answer => answer.clipboard
  | none => c

/-- The atoms where the targets of the pairs that failed are replaced. -/
def withoutFailed : List Atom → List Answer → List Atom
  | target :: property :: more, answer :: answers =>
    (if answer.success then target else noAtom) :: property :: withoutFailed more answers
  | atoms, _ => atoms

/-- The answer to a request for the pairs in a property. -/
structure AnswersPairs (d : Display) (c : XWindowsClipboard) (properties : Atom → Option WindowProperty)
    (requestor : Window) (time : Nat) (property : Atom) (p : WindowProperty) (answer : MultipleAnswer) : Prop where
  success : answer.success = true
  replies : answer.replies = (answersTo d requestor time c p.atoms).map Answer.reply ++
    [⟨requestor, d.atomMultiple, time, property, [], noAtom, 32⟩]
  clipboard : answer.clipboard = c.after (answersTo d requestor time c p.atoms)
  replaced : ∃ p', answer.properties property = some p' ∧ p'.type = p.type ∧ p'.format = p.format ∧
    p'.atoms = withoutFailed p.atoms (answersTo d requestor time c p.atoms)
  others : ∀ other, other ≠ property → answer.properties other = properties other

/-- The atoms are read as they are: all of them are pairs, and on a machine where an atom has eight bytes there are none
or only one pair and an item more, which is answered. -/
def ReadAsPairs (d : Display) (c : XWindowsClipboard) (atoms : List Atom) : Prop :=
  atoms = [] ∨ (d.sizeofAtom = 4 ∧ atoms.length % 2 = 0) ∨
    (d.sizeofAtom = 8 ∧ atoms.length = 3 ∧ ∀ target, atoms.head? = some target → Convertible d c target)

theorem after_cons (c : XWindowsClipboard) (answer : Answer) (answers : List Answer) :
    c.after (answer :: answers) = answer.clipboard.after answers := by
  unfold after
  cases answers with
  | nil => rfl
  | cons answer' answers => rw [List.getLast?_cons_cons]; cases hlast : (answer' :: answers).getLast? <;> simp_all

theorem length_withoutFailed (atoms : List Atom) (answers : List Answer) :
    (withoutFailed atoms answers).length = atoms.length := by
  induction atoms, answers using withoutFailed.induct with
  | case1 target property more answer answers ih => simp [withoutFailed, ih]
  | case2 atoms answers h => rw [withoutFailed]; exact h

theorem withoutFailed_lt {bound : Nat} (hbound : 0 < bound) {atoms : List Atom} {answers : List Answer}
    (hatoms : ∀ atom ∈ atoms, atom < bound) : ∀ atom ∈ withoutFailed atoms answers, atom < bound := by
  induction atoms, answers using withoutFailed.induct with
  | case1 target property more answer answers ih =>
    intro atom hatom
    rw [withoutFailed] at hatom
    rcases List.mem_cons.mp hatom with rfl | hatom
    · split_ifs
      · exact hatoms _ List.mem_cons_self
      · exact hbound
    · rcases List.mem_cons.mp hatom with rfl | hatom
      · exact hatoms _ (by simp)
      · exact ih (fun atom hatom => hatoms atom (by simp [hatom])) atom hatom
  | case2 atoms answers h =>
    rw [withoutFailed]
    · exact hatoms
    · exact h

theorem withoutFailed_of_success {atoms : List Atom} {answers : List Answer}
    (h : ∀ answer ∈ answers, answer.success = true) : withoutFailed atoms answers = atoms := by
  induction atoms, answers using withoutFailed.induct with
  | case1 target property more answer answers ih =>
    rw [withoutFailed, if_pos (h answer List.mem_cons_self), ih fun answer hanswer => h answer (by simp [hanswer])]
  | case2 atoms answers h' =>
    rw [withoutFailed]
    exact h'

theorem length_answersTo (c : XWindowsClipboard) (atoms : List Atom) :
    (answersTo d requestor time c atoms).length = atoms.length / 2 := by
  induction c, atoms using answersTo.induct d requestor time with
  | case1 c target property more answer ih =>
    rw [answersTo, List.length_cons, ih, List.length_cons, List.length_cons]
    omega
  | case2 atoms c h =>
    rcases atoms with _ | ⟨target, _ | ⟨property, more⟩⟩
    · rfl
    · simp [answersTo]
    · exact absurd rfl (h target property more)

/-- The loop answers the pairs from an index on; a target without a property is a read outside. -/
theorem addPairs_eq (hsize : 0 < d.sizeofAtom) (before rest : List Atom) (fuel : Nat) (c : XWindowsClipboard)
    (replies : List Reply) (changed : Bool) (hfuel : rest.length ≤ fuel)
    (hrest : ∀ atom ∈ rest, atom < 256 ^ d.sizeofAtom) :
    addPairs d requestor time (before.length + rest.length) fuel before.length
      ⟨c, atomBytes d (before ++ rest), replies, changed⟩ =
    if rest.length % 2 = 0 then
      .ok ⟨c.after (answersTo d requestor time c rest),
        atomBytes d (before ++ withoutFailed rest (answersTo d requestor time c rest)),
        replies ++ (answersTo d requestor time c rest).map Answer.reply,
        changed || (answersTo d requestor time c rest).any fun answer => !answer.success⟩
    else .error .outside := by
  induction fuel generalizing before rest c replies changed with
  | zero =>
    obtain rfl := List.eq_nil_of_length_eq_zero (Nat.le_zero.mp hfuel)
    simp [addPairs, answersTo, after, withoutFailed]
  | succ fuel ih =>
    rcases rest with _ | ⟨target, _ | ⟨property, more⟩⟩
    · rw [addPairs, if_pos (by simp)]
      simp [answersTo, after, withoutFailed]
    · have htarget := hrest target (by simp)
      rw [addPairs, if_neg (by simp), fromLE_atomBytes htarget]
      change (fromLE d.sizeofAtom _ _ >>= _) = _
      rw [fromLE_behind hsize (by simp)]
      rfl
    · have htarget := hrest target (by simp)
      have hproperty := hrest property (by simp)
      have hsecond : fromLE d.sizeofAtom (atomBytes d (before ++ target :: property :: more))
          ((before.length + 1) * d.sizeofAtom) = .ok property := by
        have hread := @fromLE_atomBytes d (before ++ [target]) more property hproperty
        rwa [List.append_assoc, List.length_append] at hread
      rw [addPairs, if_neg (by simp), fromLE_atomBytes htarget]
      change (fromLE d.sizeofAtom _ _ >>= _) = _
      rw [hsecond]
      change addPairs d requestor time _ fuel _ ⟨_, _, _, _⟩ = _
      generalize hanswer : c.addSimpleRequest d requestor target time property = answer
      have hdata : (if answer.success = true then atomBytes d (before ++ target :: property :: more)
          else XWindowsUtil.replaceAtomData d
              (atomBytes d (before ++ target :: property :: more)) before.length noAtom) =
          atomBytes d ((before ++ [if answer.success then target else noAtom, property]) ++ more) := by
        rw [List.append_assoc]
        split_ifs
        · rfl
        · rw [replaceAtomData_atomBytes]
          rfl
      have hlength : before.length + (target :: property :: more).length =
          (before ++ [if answer.success then target else noAtom, property]).length + more.length := by
        simp only [List.length_append, List.length_cons, List.length_nil]
        omega
      have hmore := ih (before ++ [if answer.success then target else noAtom, property]) more answer.clipboard
        (replies ++ [answer.reply]) (changed || !answer.success) (by simp at hfuel; omega)
        fun atom hatom => hrest atom (by simp [hatom])
      have hnext : before.length + 2 = (before ++ [if answer.success then target else noAtom, property]).length := by
        simp
      have hanswers : answersTo d requestor time c (target :: property :: more) =
          answer :: answersTo d requestor time answer.clipboard more := by
        rw [answersTo, hanswer]
      have hparity : (target :: property :: more).length % 2 = more.length % 2 := by
        simp only [List.length_cons]
        omega
      rw [hdata, hlength, hnext, hmore, hparity, hanswers, after_cons, withoutFailed, List.map_cons, List.any_cons,
        List.append_assoc, List.append_assoc, Bool.or_assoc]
      rfl

section
variable {c : XWindowsClipboard} {properties : Atom → Option WindowProperty} {property : Atom} {p : WindowProperty}
  (h : d.Conforms) (hp : properties property = some p) (hformat : p.format = 32) (htype : p.type = d.atomAtomPair)
include h hp hformat htype

theorem insertMultipleReply_eq {atoms : List Atom} (hread : readAtoms d p = atomBytes d atoms)
    (hatoms : ∀ atom ∈ atoms, atom < 256 ^ d.sizeofAtom) :
    c.insertMultipleReply d properties requestor time property =
      if atoms.length % 2 = 0 then
        .ok ⟨true, c.after (answersTo d requestor time c atoms),
            (answersTo d requestor time c atoms).map Answer.reply ++
            [⟨requestor, d.atomMultiple, time, property, [], noAtom, 32⟩],
          if (answersTo d requestor time c atoms).any fun answer => !answer.success then
            Function.update properties property (some (XWindowsUtil.setWindowProperty d
              (atomBytes d (withoutFailed atoms (answersTo d requestor time c atoms))) p.type p.format))
          else properties⟩
      else .error .outside := by
  have hsize : 0 < d.sizeofAtom := by rcases h.sizeofAtom with hsize | hsize <;> omega
  have hloop : addPairs d requestor time _ _ _ _ = _ :=
    addPairs_eq hsize [] atoms atoms.length c [] false le_rfl hatoms
  rw [List.length_nil, Nat.zero_add, List.nil_append, List.nil_append, List.nil_append, Bool.false_or] at hloop
  unfold insertMultipleReply
  rw [hp]
  dsimp only
  rw [if_neg (by simp [hformat, htype])]
  change (addPairs d requestor time ((readAtoms d p).length / d.sizeofAtom) ((readAtoms d p).length / d.sizeofAtom) 0
    ⟨c, readAtoms d p, [], false⟩ >>= _) = _
  rw [hread, length_atomBytes, Nat.mul_div_cancel _ hsize, hloop]
  by_cases hparity : atoms.length % 2 = 0
  · rw [if_pos hparity, if_pos hparity]
    rfl
  · rw [if_neg hparity, if_neg hparity]
    rfl

private theorem not_answersPairs_of_odd {atoms : List Atom} (hread : readAtoms d p = atomBytes d atoms)
    (hatoms : ∀ atom ∈ atoms, atom < 256 ^ d.sizeofAtom) (hodd : atoms.length % 2 ≠ 0) :
    ¬∃ answer, c.insertMultipleReply d properties requestor time property = .ok answer ∧
      AnswersPairs d c properties requestor time property p answer := by
  rintro ⟨answer, hanswer, -⟩
  rw [insertMultipleReply_eq h hp hformat htype hread hatoms, if_neg hodd] at hanswer
  cases hanswer

/-- With atoms of four bytes the pairs are all answered when there are only pairs. -/
private theorem answersPairs_four_iff (hsize : d.sizeofAtom = 4) :
    (∃ answer, c.insertMultipleReply d properties requestor time property = .ok answer ∧
      AnswersPairs d c properties requestor time property p answer) ↔ p.atoms.length % 2 = 0 := by
  have hsmall : ∀ atom ∈ p.atoms, atom < 2 ^ 32 := by
    intro atom hatom
    obtain ⟨item, -, rfl⟩ := List.mem_map.mp hatom
    exact item.toNat_lt
  have hread := readAtoms_four h hsize hformat
  have hatoms : ∀ atom ∈ p.atoms, atom < 256 ^ d.sizeofAtom := by rwa [hsize]
  by_cases hparity : p.atoms.length % 2 = 0
  · refine iff_of_true ⟨_, (insertMultipleReply_eq h hp hformat htype hread hatoms).trans (if_pos hparity), ?_⟩ hparity
    refine ⟨rfl, rfl, rfl, ?_, fun other hother => ?_⟩
    · dsimp only
      split_ifs with hfailed
      · refine ⟨_, Function.update_self _ _ _, rfl, rfl, ?_⟩
        rw [hformat]
        exact setWindowProperty_four h hsize (withoutFailed_lt (by decide) hsmall) _
      · refine ⟨p, hp, rfl, rfl, ?_⟩
        rw [withoutFailed_of_success]
        simpa using hfailed
    · dsimp only
      split_ifs
      · exact Function.update_of_ne hother _ _
      · rfl
  · exact iff_of_false (not_answersPairs_of_odd h hp hformat htype hread hatoms hparity) hparity

/-- With atoms of eight bytes a pair and an item more are answered when the pair is. -/
private theorem answersPairs_three_iff (hsize : d.sizeofAtom = 8) {target property' last : UInt32}
    (hitems : p.items = [target, property', last]) :
    (∃ answer, c.insertMultipleReply d properties requestor time property = .ok answer ∧
      AnswersPairs d c properties requestor time property p answer) ↔ Convertible d c target.toNat := by
  have hread := readAtoms_three h hsize hformat hitems
  have hatoms : ∀ atom ∈ [target.toNat, property'.toNat], atom < 256 ^ d.sizeofAtom := by
    intro atom hatom
    have htarget := target.toNat_lt
    have hproperty := property'.toNat_lt
    rw [hsize]
    rcases List.mem_cons.mp hatom with rfl | hatom
    · omega
    · rw [List.mem_singleton.mp hatom]
      omega
  have hp3 : p.atoms = [target.toNat, property'.toNat, last.toNat] := by rw [WindowProperty.atoms, hitems]; rfl
  have hmultiple : c.insertMultipleReply d _ requestor time _ = _ :=
    insertMultipleReply_eq h hp hformat htype hread hatoms
  rw [if_pos (by simp)] at hmultiple
  rw [← success_iff h c requestor target.toNat time property'.toNat]
  have hone : answersTo d requestor time c [target.toNat, property'.toNat] =
      [c.addSimpleRequest d requestor target.toNat time property'.toNat] := by
    simp [answersTo]
  have hsame : answersTo d requestor time c p.atoms =
      [c.addSimpleRequest d requestor target.toNat time property'.toNat] := by
    rw [hp3]
    simp [answersTo]
  rw [hone] at hmultiple
  generalize c.addSimpleRequest d requestor target.toNat time property'.toNat = answer at hmultiple hsame
  cases hsuccess : answer.success with
  | true =>
    refine iff_of_true ⟨_, hmultiple, ?_⟩ rfl
    refine ⟨rfl, by rw [hsame], by rw [hsame], ⟨p, ?_, rfl, rfl, ?_⟩, fun other _ => ?_⟩
    · simp [hsuccess, hp]
    · rw [hsame, withoutFailed_of_success]
      simpa using hsuccess
    · simp [hsuccess]
  | false =>
    refine iff_of_false ?_ Bool.false_ne_true
    rintro ⟨answer', hanswer', hpairs⟩
    rw [hmultiple] at hanswer'
    cases hanswer'
    obtain ⟨p', hp', -, -, hatoms'⟩ := hpairs.replaced
    have hlength := length_withoutFailed p.atoms (answersTo d requestor time c p.atoms)
    rw [← hatoms', hp3] at hlength
    simp only [List.any_cons, hsuccess, Bool.not_false, Bool.true_or, if_true, Function.update_self,
      Option.some.injEq] at hp'
    subst hp'
    have hreplaced : withoutFailed [target.toNat, property'.toNat] [answer] = [noAtom, property'.toNat] := by
      simp [withoutFailed, hsuccess]
    rw [hformat, hreplaced, WindowProperty.atoms, List.length_map, length_setWindowProperty_eight h hsize] at hlength
    cases hlength

/-- With atoms of eight bytes and more than three items some pair is left unanswered. -/
private theorem not_answersPairs_of_many (hsize : d.sizeofAtom = 8) (hmany : 3 < p.atoms.length) :
    ¬∃ answer, c.insertMultipleReply d properties requestor time property = .ok answer ∧
      AnswersPairs d c properties requestor time property p answer := by
  obtain ⟨atoms, hlength, hread, hatoms⟩ := exists_atomBytes (length_readAtoms_eight h hsize hformat)
  by_cases hparity : atoms.length % 2 = 0
  · rintro ⟨answer, hanswer, hpairs⟩
    rw [insertMultipleReply_eq h hp hformat htype hread hatoms, if_pos hparity] at hanswer
    cases hanswer
    have hcount := congrArg List.length hpairs.replies
    simp only [List.length_append, List.length_map, length_answersTo, List.length_singleton] at hcount
    rw [WindowProperty.atoms, List.length_map] at hcount hmany
    omega
  · exact not_answersPairs_of_odd h hp hformat htype hread hatoms hparity

/-- The pairs in a property are answered exactly when it is read as pairs. -/
theorem answersPairs_iff :
    (∃ answer, c.insertMultipleReply d properties requestor time property = .ok answer ∧
      AnswersPairs d c properties requestor time property p answer) ↔ ReadAsPairs d c p.atoms := by
  rcases h.sizeofAtom with hsize | hsize
  · rw [answersPairs_four_iff h hp hformat htype hsize]
    constructor
    · exact fun hparity => .inr (.inl ⟨hsize, hparity⟩)
    · rintro (hnone | ⟨-, hparity⟩ | ⟨height, -⟩)
      · rw [hnone]
        rfl
      · exact hparity
      · omega
  · have hshape : ReadAsPairs d c p.atoms ↔
        p.atoms = [] ∨ (p.atoms.length = 3 ∧ ∀ target, p.atoms.head? = some target → Convertible d c target) := by
      unfold ReadAsPairs
      rw [hsize]
      simp
    rw [hshape]
    rcases hitems : p.items with _ | ⟨target, _ | ⟨property', _ | ⟨last, _ | ⟨more, items⟩⟩⟩⟩
    · have hnone : p.atoms = [] := by rw [WindowProperty.atoms, hitems]; rfl
      have hlength := length_readAtoms_eight h hsize hformat
      rw [hitems] at hlength
      have hread : readAtoms d p = atomBytes d [] := List.eq_nil_of_length_eq_zero (by simpa using hlength)
      refine iff_of_true ⟨_,
          (insertMultipleReply_eq h hp hformat htype hread fun _ ha => absurd ha List.not_mem_nil).trans (if_pos rfl),
        rfl, ?_, ?_, ⟨p, hp, rfl, rfl, ?_⟩, fun _ _ => rfl⟩ (.inl hnone)
      · rw [hnone]
      · rw [hnone]
      · rw [hnone]
        rfl
    · have hone : p.atoms = [target.toNat] := by rw [WindowProperty.atoms, hitems]; rfl
      obtain ⟨atoms, hlength, hread, hatoms⟩ := exists_atomBytes (length_readAtoms_eight h hsize hformat)
      rw [hitems] at hlength
      refine iff_of_false (not_answersPairs_of_odd h hp hformat htype hread hatoms (by rw [hlength]; simp)) ?_
      rw [hone]
      simp
    · have htwo : p.atoms = [target.toNat, property'.toNat] := by rw [WindowProperty.atoms, hitems]; rfl
      obtain ⟨atoms, hlength, hread, hatoms⟩ := exists_atomBytes (length_readAtoms_eight h hsize hformat)
      rw [hitems] at hlength
      refine iff_of_false (not_answersPairs_of_odd h hp hformat htype hread hatoms (by rw [hlength]; simp)) ?_
      rw [htwo]
      simp
    · have hthree : p.atoms = [target.toNat, property'.toNat, last.toNat] := by rw [WindowProperty.atoms, hitems]; rfl
      rw [answersPairs_three_iff h hp hformat htype hsize hitems, hthree]
      simp
    · have hmany : 3 < p.atoms.length := by
        rw [WindowProperty.atoms, hitems]
        simp
      refine iff_of_false (not_answersPairs_of_many h hp hformat htype hsize hmany) ?_
      rintro (hnone | ⟨hthree, -⟩)
      · rw [hnone] at hmany
        cases hmany
      · omega

end

theorem insertMultipleReply_refused {c : XWindowsClipboard} {properties : Atom → Option WindowProperty}
    {property : Atom} (h : ∀ p, properties property = some p → p.format = 32 → p.type ≠ d.atomAtomPair) :
    c.insertMultipleReply d properties requestor time property = .ok ⟨false, c, [], properties⟩ := by
  unfold insertMultipleReply
  cases hp : properties property with
  | none => rfl
  | some p =>
    refine if_pos ?_
    by_cases hformat : p.format = 32
    · exact .inr (h p hp hformat)
    · exact .inl hformat

/-- A single request is answered for the targets that are offered unless its target is taken for plain text or is the
one for several; one for several targets is answered exactly when its property is read as pairs, and refused when it
does not hold pairs. -/
theorem selection_answers_iff (h : d.Conforms) (c : XWindowsClipboard) (requestor : Window) (time : Nat)
    (property : Atom) :
    (∀ target, Answers d c requestor target time property (c.addSimpleRequest d requestor target time property) ↔
      target = d.atomTargets ∨ target = d.atomTimestamp ∨ Known d target ∨
        target ≠ d.atomMultiple ∧ c.added .text = false) ∧
    (∀ properties p, properties property = some p → p.format = 32 → p.type = d.atomAtomPair →
      ((∃ answer, c.insertMultipleReply d properties requestor time property = .ok answer ∧
        AnswersPairs d c properties requestor time property p answer) ↔ ReadAsPairs d c p.atoms)) ∧
    ∀ properties, (∀ p, properties property = some p → p.format = 32 → p.type ≠ d.atomAtomPair) →
      c.insertMultipleReply d properties requestor time property = .ok ⟨false, c, [], properties⟩ :=
  ⟨fun target => answers_iff h c requestor target time property,
    fun _ _ hp hformat htype => answersPairs_iff h hp hformat htype,
        fun _ hrefused => insertMultipleReply_refused hrefused⟩

/-- A display that numbers the names of the atoms. -/
def numbered (sizeofAtom : Nat) : Display :=
  { intern := fun name => atomNames.idxOf name + 1, sizeofAtom := sizeofAtom, maxRequestSize := 65535, toLatin1 := id }

theorem numbered_conforms {sizeofAtom : Nat} (hsize : sizeofAtom = 4 ∨ sizeofAtom = 8) :
    (numbered sizeofAtom).Conforms where
  intern_distinct := by
    change (atomNames.map fun name => atomNames.idxOf name + 1).Nodup
    decide
  intern_ne_none _ _ := Nat.succ_ne_zero _
  sizeofAtom := hsize
  maxRequestSize := by
    change 4096 ≤ 65535
    decide

/-- A clipboard that holds some text. -/
def holdingText : XWindowsClipboard :=
  { added := fun format => format == .text, data := fun format => if format = .text then [97, 98, 99] else []
    cached := true, checkCache := false, time := 5, timeOwned := 5, cacheTime := 5, ownerTime := 5 }

/-- A property that holds the timestamp target and more. -/
def holdingPairs (d : Display) (items : List UInt32) : WindowProperty :=
  { type := d.atomAtomPair, format := 32, items := items }

/-- A target that nobody offers gets the text. Of three atoms of four bytes the last one is taken for a pair, and of one
pair with atoms of eight bytes only the target is read. -/
theorem unknown_target_gets_text :
    ¬Answers (numbered 8) holdingText 1 99 0 2 (holdingText.addSimpleRequest (numbered 8) 1 99 0 2) ∧
      (∀ answer, holdingText.insertMultipleReply (numbered 4)
        (fun _ => some (holdingPairs (numbered 4) [3, 2, 3])) 1 0 2 ≠ .ok answer) ∧
      ∀ answer, holdingText.insertMultipleReply (numbered 8)
        (fun _ => some (holdingPairs (numbered 8) [3, 2])) 1 0 2 ≠ .ok answer := by
  refine ⟨fun hanswers => ?_, fun answer hanswer => ?_, fun answer hanswer => ?_⟩
  · have htext : ¬((99 : Atom) = (numbered 8).atomTargets ∨ (99 : Atom) = (numbered 8).atomTimestamp ∨
        Known (numbered 8) 99 ∨ (99 : Atom) ≠ (numbered 8).atomMultiple ∧ holdingText.added .text = false) := by
      unfold Known
      decide
    exact htext ((answers_iff (numbered_conforms (.inr rfl)) _ _ _ _ _).mp hanswers)
  · have houtside : holdingText.insertMultipleReply (numbered 4)
        (fun _ => some (holdingPairs (numbered 4) [3, 2, 3])) 1 0 2 = .error .outside := rfl
    rw [houtside] at hanswer
    cases hanswer
  · have houtside : holdingText.insertMultipleReply (numbered 8)
        (fun _ => some (holdingPairs (numbered 8) [3, 2])) 1 0 2 = .error .outside := rfl
    rw [houtside] at hanswer
    cases hanswer

theorem selection_answers_iff_targets :
    Answers (numbered 8) holdingText 1 1 0 2 (holdingText.addSimpleRequest (numbered 8) 1 1 0 2) :=
  ((selection_answers_iff (numbered_conforms (.inr rfl)) holdingText 1 0 2).1 1).mpr (.inl rfl)

end XWindowsClipboard
end Synergy
