import Mathlib.Data.List.Nodup
import Synergy.Clipboard.BitmapConverters
import Synergy.Clipboard.Clipboard
import Synergy.Text.Unicode

/-! How the clipboard for X11 answers the requests for its data. A read outside of the data of a property is a
failure; the sending of the replies is left out. -/
namespace Synergy
open Synergy.Lib

abbrev Atom := Nat
abbrev Window := Nat

/-- What is used of the X server and of the libraries in front of it: the atoms of names, the size of an atom in
memory, the largest request, and the conversion of text to Latin-1. -/
structure Display where
  intern : String → Atom
  sizeofAtom : Nat
  maxRequestSize : Nat
  toLatin1 : Bytes → Bytes

/-- The atom that stands for nothing. -/
def noAtom : Atom := 0

/-- A property of a window; the size of its items is its format. -/
structure WindowProperty where
  type : Atom
  format : Nat
  items : List UInt32
  deriving DecidableEq

/-- A converter; `fromIClipboard` is nothing when it throws. -/
structure IXWindowsClipboardConverter where
  atom : Atom
  format : ClipboardFormat
  dataSize : Nat
  fromIClipboard : Bytes → Option Bytes

namespace Display
variable (d : Display)

def atomTargets : Atom := d.intern "TARGETS"
def atomMultiple : Atom := d.intern "MULTIPLE"
def atomTimestamp : Atom := d.intern "TIMESTAMP"
def atomInteger : Atom := d.intern "INTEGER"
def atomAtom : Atom := d.intern "ATOM"
def atomAtomPair : Atom := d.intern "ATOM_PAIR"

def htmlConverter (name : String) : IXWindowsClipboardConverter := ⟨d.intern name, .html, 8, some⟩

def bmpConverter : IXWindowsClipboardConverter :=
  ⟨d.intern "image/bmp", .bitmap, 8, fun data => some (XWindowsClipboardBMPConverter.fromIClipboard data)⟩

def utf8Converter (name : String) : IXWindowsClipboardConverter := ⟨d.intern name, .text, 8, some⟩

def ucs2Converter (name : String) : IXWindowsClipboardConverter :=
  ⟨d.intern name, .text, 16, fun data => (Unicode.UTF8ToUCS2 data).map Prod.fst⟩

def textConverter (name : String) : IXWindowsClipboardConverter :=
  ⟨d.intern name, .text, 8, fun data => some (d.toLatin1 data)⟩

/-- The converters, most desired first. -/
def converters : List IXWindowsClipboardConverter :=
  [d.htmlConverter "text/html", d.htmlConverter "application/x-moz-nativehtml", d.bmpConverter,
    d.utf8Converter "text/plain;charset=UTF-8", d.utf8Converter "text/plain;charset=utf-8",
    d.utf8Converter "UTF8_STRING", d.ucs2Converter "text/plain;charset=ISO-10646-UCS-2",
    d.ucs2Converter "text/unicode", d.textConverter "text/plain", d.textConverter "STRING"]

/-- The bytes of an item in memory, where one of 32 bits takes as many as an atom. -/
def datumSize (format : Nat) : Nat := if format = 32 then d.sizeofAtom else format / 8

end Display

/-- Pieces of a size, the last one of what is left. -/
def chunks {α : Type} (size : Nat) : Nat → List α → List (List α)
  | 0, _ => []
  | fuel + 1, l => if l.length ≤ size then [l] else l.take size :: chunks size fuel (l.drop size)

namespace XWindowsUtil
variable (d : Display)

/-- The data that is read from a property: as many bytes as its items have on the wire, of each piece that is
returned with the items as they are in memory. -/
def getWindowProperty (p : WindowProperty) : Bytes :=
  (chunks (d.maxRequestSize * (32 / p.format)) p.items.length p.items).flatMap fun piece =>
    (piece.flatMap fun item => littleEndian (d.datumSize p.format) item.toNat).take (p.format / 8 * piece.length)

/-- The property that is written; a piece is cut to whole items. -/
def setWindowProperty (data : Bytes) (type : Atom) (format : Nat) : WindowProperty :=
  { type := type
    format := format
    items := (chunks (4 * d.maxRequestSize) data.length data).flatMap fun piece =>
      (List.range (piece.length / d.datumSize format)).map fun i =>
        .ofNat (ofLittleEndian ((piece.drop (i * d.datumSize format)).take (d.datumSize format))) }

/-- A trailing half of an atom is filled up. -/
def convertAtomProperty (data : Bytes) : Bytes :=
  if d.sizeofAtom ≠ 4 ∧ data.length / 4 % 2 ≠ 0 then data ++ littleEndian 4 0 else data

def replaceAtomData (data : Bytes) (index : Nat) (atom : Atom) : Bytes :=
  data.take (index * d.sizeofAtom) ++ littleEndian d.sizeofAtom atom ++ data.drop (index * d.sizeofAtom + d.sizeofAtom)

end XWindowsUtil

structure Reply where
  requestor : Window
  target : Atom
  time : Nat
  property : Atom
  data : Bytes
  type : Atom
  format : Nat
  deriving DecidableEq

/-- The reply that is a failure notification. -/
def Reply.failure (requestor : Window) (target : Atom) (time : Nat) : Reply :=
  ⟨requestor, target, time, noAtom, [], noAtom, 32⟩

/-- The cached data of the selection. `ownerTime` is the time that the owner of the selection tells. -/
structure XWindowsClipboard where
  added : ClipboardFormat → Bool
  data : ClipboardFormat → Bytes
  cached : Bool
  checkCache : Bool
  time : Nat
  timeOwned : Nat
  cacheTime : Nat
  ownerTime : Nat

/-- What comes of a request: whether it succeeded, the clipboard after it, and the reply to it. -/
structure Answer where
  success : Bool
  clipboard : XWindowsClipboard
  reply : Reply

namespace XWindowsClipboard
variable (d : Display) (c : XWindowsClipboard)

def clearCache : XWindowsClipboard :=
  { c with added := fun _ => false, data := fun _ => [], cached := false, checkCache := false }

def checkedCache : XWindowsClipboard :=
  if !c.checkCache then c
  else
    let timeOwned := if c.ownerTime = 0 then c.time else c.ownerTime
    let c := { c with checkCache := false, timeOwned := timeOwned }
    if timeOwned ≠ c.cacheTime then c.clearCache else c

/-- The converter with the atom; when there is none, the one that was tried last. -/
def getConverter (target : Atom) (onlyIfNotAdded : Bool) : Option IXWindowsClipboardConverter :=
  let converter :=
    match d.converters.find? fun converter => converter.atom = target with
    | some converter => some converter
    | none => d.converters.getLast?
  match converter with
  | none => none
  | some converter => if onlyIfNotAdded && c.added converter.format then none else some converter

/-- The targets that are offered. -/
def targets : List Atom :=
  [d.atomTargets, d.atomMultiple, d.atomTimestamp] ++
    (d.converters.filter fun converter => c.added converter.format).map IXWindowsClipboardConverter.atom

/-- The type, the format and the data of a reply. -/
abbrev Converted := Atom × Nat × Bytes

def getTargetsData : Converted := (d.atomAtom, 32, (c.targets d).flatMap (littleEndian d.sizeofAtom))

def getTimestampData : XWindowsClipboard × Converted :=
  (c.checkedCache, d.atomInteger, 32, littleEndian d.sizeofAtom c.checkedCache.timeOwned)

/-- What the converter makes of the stored format. -/
def converted (target : Atom) : Converted :=
  match c.getConverter d target false with
  | none => (noAtom, 0, [])
  | some converter =>
    if c.added converter.format then
      match converter.fromIClipboard (c.data converter.format) with
      | none => (noAtom, 0, [])
      | some data => (converter.atom, converter.dataSize, data)
    else (noAtom, 0, [])

def addSimpleRequest (requestor : Window) (target : Atom) (time : Nat) (property : Atom) : Answer :=
  let property := if property = noAtom then target else property
  let (c, type, format, data) :=
    if target = d.atomTargets then (c, c.getTargetsData d)
    else if target = d.atomTimestamp then c.getTimestampData d
    else (c, c.converted d target)
  if type ≠ noAtom then ⟨true, c, ⟨requestor, target, time, property, data, type, format⟩⟩
  else ⟨false, c, .failure requestor target time⟩

/-- The state of the loop over the pairs of a request for several targets. -/
structure Pairs where
  clipboard : XWindowsClipboard
  data : Bytes
  replies : List Reply
  changed : Bool

/-- The loop over the pairs from an index on; every turn takes two of the targets. -/
def addPairs (requestor : Window) (time numTargets : Nat) : Nat → Nat → Pairs → Except Fault Pairs
  | 0, _, st => .ok st
  | fuel + 1, i, st =>
    if numTargets ≤ i then .ok st
    else do
      let target ← fromLE d.sizeofAtom st.data (i * d.sizeofAtom)
      let property ← fromLE d.sizeofAtom st.data ((i + 1) * d.sizeofAtom)
      let answer := st.clipboard.addSimpleRequest d requestor target time property
      addPairs requestor time numTargets fuel (i + 2)
        { clipboard := answer.clipboard
          data := if answer.success then st.data else XWindowsUtil.replaceAtomData d st.data i noAtom
          replies := st.replies ++ [answer.reply]
          changed := st.changed || !answer.success }

/-- What comes of a request for several targets, with the properties of the requestor after it. -/
structure MultipleAnswer where
  success : Bool
  clipboard : XWindowsClipboard
  replies : List Reply
  properties : Atom → Option WindowProperty

def insertMultipleReply (properties : Atom → Option WindowProperty) (requestor : Window) (time : Nat)
    (property : Atom) : Except Fault MultipleAnswer :=
  match properties property with
  | none => .ok ⟨false, c, [], properties⟩
  | some p =>
    if p.format ≠ 32 ∨ p.type ≠ d.atomAtomPair then .ok ⟨false, c, [], properties⟩
    else do
      let data := XWindowsUtil.convertAtomProperty d (XWindowsUtil.getWindowProperty d p)
      let numTargets := data.length / d.sizeofAtom
      let st ← addPairs d requestor time numTargets numTargets 0 ⟨c, data, [], false⟩
      let properties :=
        if st.changed then
          Function.update properties property (some (XWindowsUtil.setWindowProperty d st.data p.type p.format))
        else properties
      return ⟨true, st.clipboard, st.replies ++ [⟨requestor, d.atomMultiple, time, property, [], noAtom, 32⟩],
          properties⟩

end XWindowsClipboard
end Synergy

/-! The targets that a request of one of them is answered for, against those that are offered. -/
namespace Synergy
open Synergy.Lib

def converterNames : List String :=
  ["text/html", "application/x-moz-nativehtml", "image/bmp", "text/plain;charset=UTF-8", "text/plain;charset=utf-8",
    "UTF8_STRING", "text/plain;charset=ISO-10646-UCS-2", "text/unicode", "text/plain", "STRING"]

/-- The names that atoms are got for. -/
def atomNames : List String :=
  ["TARGETS", "MULTIPLE", "TIMESTAMP", "INTEGER", "ATOM", "ATOM_PAIR"] ++ converterNames

/-- What the documentation of the X server and of its library says of them. -/
structure Display.Conforms (d : Display) : Prop where
  intern_distinct : (atomNames.map d.intern).Nodup
  intern_ne_none : ∀ name ∈ atomNames, d.intern name ≠ noAtom
  sizeofAtom : d.sizeofAtom = 4 ∨ d.sizeofAtom = 8
  maxRequestSize : 4096 ≤ d.maxRequestSize

theorem Display.Conforms.intern_ne {d : Display} (h : d.Conforms) {name name' : String} (hname : name ∈ atomNames)
    (hname' : name' ∈ atomNames) (hne : name ≠ name') : d.intern name ≠ d.intern name' :=
  fun heq => hne (List.inj_on_of_nodup_map h.intern_distinct hname hname' heq)

namespace XWindowsClipboard
variable {d : Display} {c : XWindowsClipboard} {requestor : Window} {target : Atom} {time : Nat} {property : Atom}

/-- The answer that a target is to have: one that is offered has a reply of its own type, from its own converter, and
any other one has a failure notification. -/
structure Answers (d : Display) (c : XWindowsClipboard) (requestor : Window) (target : Atom) (time : Nat)
    (property : Atom) (answer : Answer) : Prop where
  offered : answer.success = true ↔ target ∈ c.targets d
  targets : target = d.atomTargets →
    answer.reply.type = d.atomAtom ∧ answer.reply.data = (c.targets d).flatMap (littleEndian d.sizeofAtom)
  timestamp : target = d.atomTimestamp → answer.reply.type = d.atomInteger
  converted : answer.success = true → target ≠ d.atomTargets → target ≠ d.atomTimestamp →
    answer.reply.type = target ∧ ∃ converter ∈ d.converters, converter.atom = target ∧
      converter.fromIClipboard (c.data converter.format) = some answer.reply.data
  refused : answer.success = false → answer.reply = .failure requestor target time

/-- There is a converter of the target's own. -/
def Known (d : Display) (target : Atom) : Prop := ∃ converter ∈ d.converters, converter.atom = target

/-- The format that answers the target is stored; without a converter of its own that is plain text. -/
def Convertible (d : Display) (c : XWindowsClipboard) (target : Atom) : Prop :=
  target = d.atomTargets ∨ target = d.atomTimestamp ∨
    (∃ converter ∈ d.converters, converter.atom = target ∧ c.added converter.format = true) ∨
    ¬Known d target ∧ c.added .text = true

private theorem atoms_converters (d : Display) :
    d.converters.map IXWindowsClipboardConverter.atom = converterNames.map d.intern := rfl

private theorem atom_named {converter : IXWindowsClipboardConverter} (hmem : converter ∈ d.converters) :
    ∃ name ∈ converterNames, d.intern name = converter.atom := by
  refine List.mem_map.mp ?_
  rw [← atoms_converters]
  exact List.mem_map_of_mem hmem

private theorem mem_atomNames {name : String} (hname : name ∈ converterNames) : name ∈ atomNames :=
  List.mem_append_right _ hname

/-- Two converters are for different atoms. -/
theorem converter_unique (h : d.Conforms) {converter converter' : IXWindowsClipboardConverter}
    (hmem : converter ∈ d.converters) (hmem' : converter' ∈ d.converters) (hatom : converter.atom = converter'.atom) :
    converter = converter' := by
  have hnodup : (d.converters.map IXWindowsClipboardConverter.atom).Nodup := by
    rw [atoms_converters]
    exact h.intern_distinct.sublist ((List.sublist_append_right _ converterNames).map d.intern)
  exact List.inj_on_of_nodup_map hnodup hmem hmem' hatom

theorem converter_named (h : d.Conforms) {name : String} (hname : name ∈ atomNames) (hother : name ∉ converterNames)
    {converter : IXWindowsClipboardConverter} (hmem : converter ∈ d.converters) : converter.atom ≠ d.intern name := by
  obtain ⟨name', hname', heq⟩ := atom_named hmem
  rw [← heq]
  refine h.intern_ne (mem_atomNames hname') hname ?_
  rintro rfl
  exact hother hname'

theorem converter_ne_none (h : d.Conforms) {converter : IXWindowsClipboardConverter} (hmem : converter ∈ d.converters) :
    converter.atom ≠ noAtom := by
  obtain ⟨name, hname, heq⟩ := atom_named hmem
  rw [← heq]
  exact h.intern_ne_none name (mem_atomNames hname)

/-- No converter throws. -/
theorem fromIClipboard_isSome {converter : IXWindowsClipboardConverter} (hmem : converter ∈ d.converters)
    (data : Bytes) : ∃ converted, converter.fromIClipboard data = some converted := by
  simp only [Display.converters, List.mem_cons, List.not_mem_nil, or_false] at hmem
  have hucs2 (name : String) : ∃ converted, (d.ucs2Converter name).fromIClipboard data = some converted := by
    exact ⟨_, congrArg (Option.map Prod.fst) (Unicode.UTF8ToUCS2_eq data)⟩
  rcases hmem with rfl | rfl | rfl | rfl | rfl | rfl | rfl | rfl | rfl | rfl
  · exact ⟨_, rfl⟩
  · exact ⟨_, rfl⟩
  · exact ⟨_, rfl⟩
  · exact ⟨_, rfl⟩
  · exact ⟨_, rfl⟩
  · exact ⟨_, rfl⟩
  · exact hucs2 _
  · exact hucs2 _
  · exact ⟨_, rfl⟩
  · exact ⟨_, rfl⟩

theorem mem_targets : target ∈ c.targets d ↔ target = d.atomTargets ∨ target = d.atomMultiple ∨
    target = d.atomTimestamp ∨ ∃ converter ∈ d.converters, c.added converter.format = true ∧ converter.atom =
        target := by
  simp only [XWindowsClipboard.targets, List.mem_append, List.mem_cons, List.not_mem_nil, or_false, List.mem_map,
    List.mem_filter, or_assoc, and_assoc]

/-- The converter that answers: the target's own, or the last one, which is for plain text. -/
theorem getConverter_eq (h : d.Conforms) :
    (∀ converter ∈ d.converters, converter.atom = target → c.getConverter d target false = some converter) ∧
      (¬Known d target → c.getConverter d target false = some (d.textConverter "STRING")) := by
  refine ⟨fun converter hmem hatom => ?_, fun hunknown => ?_⟩
  · have hfind : d.converters.find? (fun converter => converter.atom = target) = some converter := by
      have hsome : (d.converters.find? fun converter => converter.atom = target).isSome = true :=
        List.find?_isSome.mpr ⟨converter, hmem, by simpa using hatom⟩
      obtain ⟨found, hfound⟩ := Option.isSome_iff_exists.mp hsome
      have hfoundAtom : found.atom = target := by simpa using List.find?_some hfound
      rw [hfound, converter_unique h (List.mem_of_find?_eq_some hfound) hmem (hfoundAtom.trans hatom.symm)]
    unfold getConverter
    rw [hfind]
    rfl
  · have hfind : d.converters.find? (fun converter => converter.atom = target) = none :=
      List.find?_eq_none.mpr fun converter hmem hatom => hunknown ⟨converter, hmem, of_decide_eq_true hatom⟩
    unfold getConverter
    rw [hfind]
    rfl

/-- What a converter makes of a format that is stored, or nothing. -/
theorem converted_eq {converter : IXWindowsClipboardConverter} (hmem : converter ∈ d.converters)
    (hget : c.getConverter d target false = some converter) :
    ∃ data, converter.fromIClipboard (c.data converter.format) = some data ∧ c.converted d target =
      if c.added converter.format then (converter.atom, converter.dataSize, data) else (noAtom, 0, []) := by
  obtain ⟨data, hdata⟩ := fromIClipboard_isSome hmem (c.data converter.format)
  refine ⟨data, hdata, ?_⟩
  unfold XWindowsClipboard.converted
  rw [hget]
  dsimp only
  rw [hdata]

/-- The answer to a target that is not for the clipboard itself. -/
theorem addSimpleRequest_converted (h : d.Conforms) (htargets : target ≠ d.atomTargets)
    (htimestamp : target ≠ d.atomTimestamp) {converter : IXWindowsClipboardConverter} (hmem : converter ∈ d.converters)
    (hget : c.getConverter d target false = some converter) :
    ∃ data, converter.fromIClipboard (c.data converter.format) = some data ∧
      c.addSimpleRequest d requestor target time property =
        if c.added converter.format then
          ⟨true, c, ⟨requestor, target, time, if property = noAtom then target else property, data, converter.atom,
            converter.dataSize⟩⟩
        else ⟨false, c, .failure requestor target time⟩ := by
  obtain ⟨data, hdata, hconverted⟩ := converted_eq hmem hget
  refine ⟨data, hdata, ?_⟩
  unfold addSimpleRequest
  rw [if_neg htargets, if_neg htimestamp, hconverted]
  by_cases hadded : c.added converter.format = true
  · rw [if_pos hadded, if_pos hadded]
    exact if_pos (converter_ne_none h hmem)
  · rw [if_neg hadded, if_neg hadded]
    exact if_neg fun hne => hne rfl

section
variable (h : d.Conforms)
include h

private theorem answers_targets (htargets : target = d.atomTargets) :
    Answers d c requestor target time property (c.addSimpleRequest d requestor target time property) := by
  have hanswer : c.addSimpleRequest d requestor target time property = ⟨true, c, ⟨requestor, target, time,
      if property = noAtom then target else property, (c.getTargetsData d).2.2, d.atomAtom, 32⟩⟩ := by
    unfold addSimpleRequest
    rw [if_pos htargets]
    exact if_pos (h.intern_ne_none _ (by decide))
  rw [hanswer]
  exact ⟨iff_of_true rfl (mem_targets.mpr (.inl htargets)), fun _ => ⟨rfl, rfl⟩,
    fun htimestamp => absurd (htargets.symm.trans htimestamp) (h.intern_ne (by decide) (by decide) (by decide)),
    fun _ hne => absurd htargets hne, (fun hfalse => nomatch hfalse)⟩

private theorem answers_timestamp (htimestamp : target = d.atomTimestamp) :
    Answers d c requestor target time property (c.addSimpleRequest d requestor target time property) := by
  have htargets : target ≠ d.atomTargets := fun ht => h.intern_ne (by decide) (by decide) (by decide)
      (htimestamp.symm.trans ht)
  have hanswer : c.addSimpleRequest d requestor target time property = ⟨true, c.checkedCache, ⟨requestor, target,
      time, if property = noAtom then target else property, (c.getTimestampData d).2.2.2, d.atomInteger, 32⟩⟩ := by
    unfold addSimpleRequest
    rw [if_neg htargets, if_pos htimestamp]
    exact if_pos (h.intern_ne_none _ (by decide))
  rw [hanswer]
  exact ⟨iff_of_true rfl (mem_targets.mpr (.inr (.inr (.inl htimestamp)))), fun ht => absurd ht htargets,
    fun _ => rfl, fun _ _ hne => absurd htimestamp hne, (fun hfalse => nomatch hfalse)⟩

private theorem answers_known (htargets : target ≠ d.atomTargets) (htimestamp : target ≠ d.atomTimestamp)
    (hknown : Known d target) :
    Answers d c requestor target time property (c.addSimpleRequest d requestor target time property) := by
  obtain ⟨converter, hmem, hatom⟩ := hknown
  obtain ⟨data, hdata, hanswer⟩ := @addSimpleRequest_converted d c requestor target time property h htargets
    htimestamp _ hmem ((getConverter_eq h).1 converter hmem hatom)
  have hoffered : target ∈ c.targets d ↔ c.added converter.format = true := by
    rw [mem_targets]
    constructor
    · rintro (ht | ht | ht | ⟨converter', hmem', hadded, hatom'⟩)
      · exact absurd ht htargets
      · exact absurd (hatom.trans ht) (converter_named h (by decide) (by decide) hmem)
      · exact absurd ht htimestamp
      · rwa [converter_unique h hmem hmem' (hatom.trans hatom'.symm)]
    · exact fun hadded => .inr (.inr (.inr ⟨converter, hmem, hadded, hatom⟩))
  rw [hanswer]
  by_cases hadded : c.added converter.format = true
  · rw [if_pos hadded]
    exact ⟨iff_of_true rfl (hoffered.mpr hadded), fun ht => absurd ht htargets, fun ht => absurd ht htimestamp,
      fun _ _ _ => ⟨hatom, converter, hmem, hatom, hdata⟩, (fun hfalse => nomatch hfalse)⟩
  · rw [if_neg hadded]
    exact ⟨iff_of_false Bool.false_ne_true fun ht => hadded (hoffered.mp ht), fun ht => absurd ht htargets,
      fun ht => absurd ht htimestamp, (fun htrue => nomatch htrue), fun _ => rfl⟩

/-- A target without a converter is taken for plain text when there is some. -/
private theorem answers_unknown_iff (htargets : target ≠ d.atomTargets) (htimestamp : target ≠ d.atomTimestamp)
    (hunknown : ¬Known d target) :
    Answers d c requestor target time property (c.addSimpleRequest d requestor target time property) ↔
      target ≠ d.atomMultiple ∧ c.added .text = false := by
  have hlast : d.textConverter "STRING" ∈ d.converters := by simp [Display.converters]
  obtain ⟨data, -, hanswer⟩ := @addSimpleRequest_converted d c requestor target time property h htargets htimestamp _
    hlast ((getConverter_eq h).2 hunknown)
  have hoffered : target ∈ c.targets d ↔ target = d.atomMultiple := by
    rw [mem_targets]
    constructor
    · rintro (ht | ht | ht | ⟨converter, hmem, -, hatom⟩)
      · exact absurd ht htargets
      · exact ht
      · exact absurd ht htimestamp
      · exact absurd ⟨converter, hmem, hatom⟩ hunknown
    · exact fun ht => .inr (.inl ht)
  have htext : (d.textConverter "STRING").format = .text := rfl
  rw [hanswer, htext]
  by_cases hadded : c.added .text = true
  · rw [if_pos hadded, hadded]
    refine iff_of_false (fun hanswers => ?_) fun ht => Bool.false_ne_true ht.2.symm
    obtain ⟨htype, -⟩ := hanswers.converted rfl htargets htimestamp
    exact hunknown ⟨_, hlast, htype⟩
  · have hnone : c.added .text = false := by simpa using hadded
    rw [if_neg hadded, hnone, and_iff_left rfl]
    constructor
    · exact fun hanswers hmultiple =>
        absurd (hanswers.offered.mpr (hoffered.mpr hmultiple)) Bool.false_ne_true
    · intro hmultiple
      exact ⟨iff_of_false Bool.false_ne_true fun ht => hmultiple (hoffered.mp ht), fun ht => absurd ht htargets,
        fun ht => absurd ht htimestamp, (fun htrue => nomatch htrue), fun _ => rfl⟩

/-- A target has the answer that it is to have, unless it is taken for plain text or is the one for several. -/
theorem answers_iff (c : XWindowsClipboard) (requestor : Window) (target : Atom) (time : Nat) (property : Atom) :
    Answers d c requestor target time property (c.addSimpleRequest d requestor target time property) ↔
      target = d.atomTargets ∨ target = d.atomTimestamp ∨ Known d target ∨
        target ≠ d.atomMultiple ∧ c.added .text = false := by
  by_cases htargets : target = d.atomTargets
  · exact iff_of_true (answers_targets h htargets) (.inl htargets)
  · by_cases htimestamp : target = d.atomTimestamp
    · exact iff_of_true (answers_timestamp h htimestamp) (.inr (.inl htimestamp))
    · by_cases hknown : Known d target
      · exact iff_of_true (answers_known h htargets htimestamp hknown) (.inr (.inr (.inl hknown)))
      · rw [answers_unknown_iff h htargets htimestamp hknown, or_iff_right htargets, or_iff_right htimestamp,
          or_iff_right hknown]

/-- A single request succeeds exactly when something answers it. -/
theorem success_iff (c : XWindowsClipboard) (requestor : Window) (target : Atom) (time : Nat) (property : Atom) :
    (c.addSimpleRequest d requestor target time property).success = true ↔ Convertible d c target := by
  unfold Convertible
  by_cases htargets : target = d.atomTargets
  · exact iff_of_true ((answers_targets h htargets).offered.mpr (mem_targets.mpr (.inl htargets))) (.inl htargets)
  · by_cases htimestamp : target = d.atomTimestamp
    · exact iff_of_true ((answers_timestamp h htimestamp).offered.mpr (mem_targets.mpr (.inr (.inr (.inl htimestamp)))))
        (.inr (.inl htimestamp))
    · rw [or_iff_right htargets, or_iff_right htimestamp]
      by_cases hknown : Known d target
      · obtain ⟨converter, hmem, hatom⟩ := hknown
        obtain ⟨data, -, hanswer⟩ := @addSimpleRequest_converted d c requestor target time property h htargets
          htimestamp _ hmem ((getConverter_eq h).1 converter hmem hatom)
        rw [hanswer]
        by_cases hadded : c.added converter.format = true
        · rw [if_pos hadded]
          exact iff_of_true rfl (.inl ⟨converter, hmem, hatom, hadded⟩)
        · rw [if_neg hadded]
          refine iff_of_false Bool.false_ne_true ?_
          rintro (⟨converter', hmem', hatom', hadded'⟩ | ⟨hunknown, -⟩)
          · exact hadded (converter_unique h hmem hmem' (hatom.trans hatom'.symm) ▸ hadded')
          · exact hunknown ⟨converter, hmem, hatom⟩
      · have hlast : d.textConverter "STRING" ∈ d.converters := by simp [Display.converters]
        obtain ⟨data, -, hanswer⟩ := @addSimpleRequest_converted d c requestor target time property h htargets
          htimestamp _ hlast ((getConverter_eq h).2 hknown)
        have htext : (d.textConverter "STRING").format = .text := rfl
        rw [hanswer, htext]
        by_cases hadded : c.added .text = true
        · rw [if_pos hadded]
          exact iff_of_true rfl (.inr ⟨hknown, hadded⟩)
        · rw [if_neg hadded]
          refine iff_of_false Bool.false_ne_true ?_
          rintro (⟨converter, hmem, hatom, -⟩ | ⟨-, hadded'⟩)
          · exact hknown ⟨converter, hmem, hatom⟩
          · exact hadded hadded'

end

end XWindowsClipboard
end Synergy
