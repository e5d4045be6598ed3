import Mathlib.Logic.Relation
import Synergy.Server.ConfigReading

/-! Edits of the layout of a configuration: blanks, empty lines, comments and line ends. -/
namespace Synergy
open Synergy.Lib ConfigReadContext

namespace ConfigReadContext

/-- A blank or a carriage return. -/
def isSpace (c : Char) : Bool := isBlank c || c == '\r'

def beforeComment (raw : Str) : Str := raw.takeWhile (· ≠ '#')

/-- What a line says: its text before the comment, without the blanks around it. -/
def content (raw : Str) : Str := (((beforeComment raw).dropWhile isBlank).reverse.dropWhile isSpace).reverse

/-- A line that says nothing and is yet not empty before its comment: it has a carriage return there,
or nothing else than blanks and no comment. -/
def isWhiteLine (raw : Str) : Bool :=
  (beforeComment raw).all isSpace && !(beforeComment raw).isEmpty &&
    ((beforeComment raw).contains '\r' || !raw.contains '#')

def NoWhiteLines (t : Str) : Prop := ∀ raw ∈ getlines t, isWhiteLine raw = false

/-- What the lines of a text say. -/
def contents (t : Str) : List Str := ((getlines t).map content).filter (· ≠ [])

/-- The texts that are handed out for the lines of a text. -/
def givenLines (t : Str) : List Str := ((getlines t).map stripped).filter (· ≠ [])

def AtLineStart (before : Str) : Prop := before = [] ∨ ∃ front, before = front ++ ['\n']

def AtLineEnd (after : Str) : Prop := ∃ back, (after = [] ∨ after = '\n' :: back) ∨ after = '\r' :: '\n' :: back

/-- An empty line, a line of blanks, or a line of a comment. -/
def IsLayoutLine (line : Str) : Prop :=
  '\n' ∉ line ∧ ∃ blanks, Blanks blanks ∧ (line = blanks ∨ ∃ text, line = blanks ++ '#' :: text)

/-- One edit of the layout. -/
inductive Relaid : Str → Str → Prop
  | insertLine {before line : Str} (after : Str) : AtLineStart before → IsLayoutLine line →
      Relaid (before ++ after) (before ++ (line ++ '\n' :: after))
  | insertLast (before : Str) {line : Str} : IsLayoutLine line → Relaid before (before ++ '\n' :: line)
  | addLeading {before : Str} {c : Char} (after : Str) : AtLineStart before → isBlank c = true →
      Relaid (before ++ after) (before ++ c :: after)
  | dropLeading {before : Str} {c : Char} (after : Str) : AtLineStart before → isBlank c = true →
      Relaid (before ++ c :: after) (before ++ after)
  | addTrailing (before : Str) {after : Str} {c : Char} : AtLineEnd after → isBlank c = true →
      Relaid (before ++ after) (before ++ c :: after)
  | dropTrailing (before : Str) {after : Str} {c : Char} : AtLineEnd after → isBlank c = true →
      Relaid (before ++ c :: after) (before ++ after)
  | addComment (before : Str) {after text : Str} : AtLineEnd after → '\n' ∉ text →
      Relaid (before ++ after) (before ++ ('#' :: text ++ after))
  | toCRLF (before after : Str) : Relaid (before ++ '\n' :: after) (before ++ '\r' :: '\n' :: after)
  | toLF (before after : Str) : Relaid (before ++ '\r' :: '\n' :: after) (before ++ '\n' :: after)

/-- A text that is laid out anew by any number of edits. -/
def SameLayout (t t' : Str) : Prop := Relation.ReflTransGen Relaid t t'

private theorem beforeComment_of_none {raw : Str} (h : '#' ∉ raw) : beforeComment raw = raw := by
  refine List.takeWhile_eq_self_iff.mpr fun c hc => ?_
  simpa using fun hm : c = '#' => h (hm ▸ hc)

private theorem beforeComment_comment (raw s : Str) : beforeComment (raw ++ '#' :: s) = beforeComment raw := by
  induction raw with
  | nil => simp [beforeComment]
  | cons c raw ih =>
    unfold beforeComment at ih ⊢
    rw [List.cons_append, List.takeWhile_cons, List.takeWhile_cons, ih]

/-- White space at the end of a text goes. -/
private theorem dropSpaces_append {s spaces : Str} (h : spaces.all isSpace = true) :
    (s ++ spaces).reverse.dropWhile isSpace = s.reverse.dropWhile isSpace := by
  rw [List.reverse_append, List.dropWhile_append_of_pos fun c hc => ?_]
  exact List.all_eq_true.mp h c (List.mem_reverse.mp hc)

private theorem dropSpaces_all {spaces : Str} (h : spaces.all isSpace = true) : spaces.reverse.dropWhile isSpace = [] :=
  dropSpaces_append (s := []) h

private theorem all_dropWhile {p q : Char → Bool} {s : Str} (h : s.all p = true) : (s.dropWhile q).all p = true :=
  List.all_eq_true.mpr fun c hc => List.all_eq_true.mp h c ((List.dropWhile_sublist q).subset hc)

theorem content_comment (raw text : Str) : content (raw ++ '#' :: text) = content raw := by
  rw [content, content, beforeComment_comment]

/-- White space behind a line says nothing. -/
theorem content_append {raw spaces : Str} (h : spaces.all isSpace = true) : content (raw ++ spaces) = content raw := by
  by_cases hraw : '#' ∈ raw
  · obtain ⟨front, back, rfl⟩ := List.append_of_mem hraw
    rw [List.append_assoc, List.cons_append, content_comment, content_comment]
  · have hspaces : '#' ∉ spaces := fun hm => absurd (List.all_eq_true.mp h '#' hm) (by decide)
    have hboth : '#' ∉ raw ++ spaces := fun hm => (List.mem_append.mp hm).elim hraw hspaces
    rw [content, content, beforeComment_of_none hraw, beforeComment_of_none hboth, List.dropWhile_append]
    split_ifs with hblank
    · rw [dropSpaces_all (all_dropWhile h), List.isEmpty_iff.mp hblank]
      rfl
    · rw [dropSpaces_append h]

theorem content_cons {raw : Str} {c : Char} (h : isBlank c = true) : content (c :: raw) = content raw := by
  have hc : c ≠ '#' := by
    rintro rfl
    cases h
  simp [content, beforeComment, hc, h]

theorem content_layoutLine {line : Str} (h : IsLayoutLine line) : content line = [] := by
  obtain ⟨-, blanks, hblanks, hline⟩ := h
  have hspaces : blanks.all isSpace = true := List.all_eq_true.mpr fun c hc => by simp [isSpace, hblanks c hc]
  have hnone : content blanks = [] := @content_append [] blanks hspaces
  rcases hline with rfl | ⟨text, rfl⟩
  · exact hnone
  · rw [content_comment, hnone]

private theorem getlines_cons {c : Char} (hc : c ≠ '\n') {s line : Str} {more : List Str}
    (h : getlines s = line :: more) :
    getlines (c :: s) = (c :: line) :: more := by
  rw [getlines, if_neg hc, h]

theorem getlines_line {line : Str} (h : '\n' ∉ line) (rest : Str) :
    getlines (line ++ '\n' :: rest) = line :: getlines rest := by
  induction line with
  | nil => rw [List.nil_append, getlines, if_pos rfl]
  | cons c line ih =>
    obtain ⟨hc, hline⟩ := not_or.mp (fun hm => h (List.mem_cons.mpr hm))
    exact getlines_cons (Ne.symm hc) (ih hline)

theorem getlines_last {line : Str} (h : '\n' ∉ line) (hne : line ≠ []) : getlines line = [line] := by
  induction line with
  | nil => exact absurd rfl hne
  | cons c line ih =>
    obtain ⟨hc, hline⟩ := not_or.mp (fun hm => h (List.mem_cons.mpr hm))
    cases line with
    | nil => rw [getlines, if_neg (Ne.symm hc), getlines]
    | cons d line => exact getlines_cons (Ne.symm hc) (ih hline (List.cons_ne_nil _ _))

private theorem getlines_ne_nil {s : Str} (hs : s ≠ []) : getlines s ≠ [] := by
  cases s with
  | nil => exact absurd rfl hs
  | cons c s =>
    rw [getlines]
    split_ifs
    · exact List.cons_ne_nil _ _
    · cases getlines s <;> exact List.cons_ne_nil _ _

/-- Complete lines are read apart from what follows them. -/
theorem getlines_append (front x : Str) :
    getlines (front ++ '\n' :: x) = getlines (front ++ ['\n']) ++ getlines x := by
  induction front with
  | nil => simp [getlines]
  | cons c front ih =>
    by_cases hc : c = '\n'
    · subst hc
      simp [getlines, ih]
    · obtain ⟨line, more, hline⟩ := List.exists_cons_of_ne_nil (getlines_ne_nil (s := front ++ ['\n']) (by simp))
      rw [hline] at ih
      rw [List.cons_append, getlines_cons hc ih, List.cons_append, getlines_cons hc hline]
      rfl

private theorem contents_append (front x : Str) : contents (front ++ '\n' :: x) = contents
    (front ++ ['\n']) ++ contents x := by
  rw [contents, getlines_append, List.map_append, List.filter_append]
  rfl

private theorem contents_atLineStart {before : Str} (h : AtLineStart before) (x : Str) :
    contents (before ++ x) = contents before ++ contents x := by
  rcases h with rfl | ⟨front, rfl⟩
  · rfl
  · rw [List.append_assoc]
    exact contents_append front x

private theorem contents_line {line : Str} (h : '\n' ∉ line) (rest : Str) :
    contents (line ++ '\n' :: rest) = [content line].filter (· ≠ []) ++ contents rest := by
  rw [contents, getlines_line h, List.map_cons, ← List.singleton_append, List.filter_append]
  rfl

private theorem contents_last {line : Str} (h : '\n' ∉ line) : contents line = [content line].filter (· ≠ []) := by
  by_cases hne : line = []
  · subst hne
    rfl
  · rw [contents, getlines_last h hne]
    rfl

/-- A text is complete lines and one that may go on. -/
private theorem exists_lastLine (before : Str) : ∃ front line, before = front ++ line ∧ '\n' ∉ line ∧
    AtLineStart front := by
  induction before using List.reverseRecOn with
  | nil => exact ⟨[], [], rfl, by simp, .inl rfl⟩
  | append_singleton before c ih =>
    by_cases hc : c = '\n'
    · subst hc
      exact ⟨before ++ ['\n'], [], by simp, by simp, .inr ⟨before, rfl⟩⟩
    · obtain ⟨front, line, rfl, hline, hfront⟩ := ih
      refine ⟨front, line ++ [c], by simp, ?_, hfront⟩
      simp [hline, Ne.symm hc]

/-- What two texts make of a line that is begun, they make of any text before them. -/
private theorem contents_congr {x y : Str} (h : ∀ line, '\n' ∉ line → contents (line ++ x) = contents (line ++ y))
    (before : Str) : contents (before ++ x) = contents (before ++ y) := by
  obtain ⟨front, line, rfl, hline, hfront⟩ := exists_lastLine before
  rw [List.append_assoc, List.append_assoc, contents_atLineStart hfront, contents_atLineStart hfront, h line hline]

/-- The end of a line may be replaced by one that says the same. -/
private theorem contents_lineEnd (before ending ending' : Str) {after : Str}
    (hsame : ∀ line, content (line ++ ending) = content (line ++ ending')) (he : '\n' ∉ ending)
        (he' : '\n' ∉ ending') (hafter : after = [] ∨ ∃ rest, after = '\n' :: rest) :
    contents (before ++ (ending ++ after)) = contents (before ++ (ending' ++ after)) := by
  refine contents_congr (fun line hline => ?_) before
  have hboth : '\n' ∉ line ++ ending := fun hm => (List.mem_append.mp hm).elim hline he
  have hboth' : '\n' ∉ line ++ ending' := fun hm => (List.mem_append.mp hm).elim hline he'
  rw [← List.append_assoc, ← List.append_assoc]
  rcases hafter with rfl | ⟨rest, rfl⟩
  · rw [List.append_nil, List.append_nil, contents_last hboth, contents_last hboth', hsame]
  · rw [contents_line hboth, contents_line hboth', hsame]

/-- White space may be added to the end of a line, before a carriage return as well. -/
private theorem contents_addEnding (before : Str) {ending after : Str} (h : AtLineEnd after) (he : '\n' ∉ ending)
    (hsame : ∀ line, content (line ++ ending) = content line)
    (hsame' : ∀ line, content (line ++ (ending ++ ['\r'])) = content line) :
    contents (before ++ (ending ++ after)) = contents (before ++ after) := by
  have hcr (line : Str) : content (line ++ ['\r']) = content line := content_append rfl
  obtain ⟨back, (rfl | rfl) | rfl⟩ := h
  · exact contents_lineEnd before ending [] (fun line => by rw [hsame, List.append_nil]) he (by simp) (.inl rfl)
  · exact contents_lineEnd before ending [] (fun line => by rw [hsame, List.append_nil]) he (by simp) (.inr ⟨back, rfl⟩)
  · have hends := contents_lineEnd before (ending ++ ['\r']) ['\r']
      (fun line => by rw [hsame', hcr]) (by simpa using he) (by simp) (.inr ⟨back, rfl⟩)
    simpa using hends

private theorem contents_addBlank (before : Str) {after : Str} {c : Char} (h : AtLineEnd after)
    (hc : isBlank c = true) :
    contents (before ++ c :: after) = contents (before ++ after) := by
  have hspace : isSpace c = true := by simp [isSpace, hc]
  have hne : '\n' ∉ [c] := fun hm => absurd (List.mem_singleton.mp hm ▸ hc) (by decide)
  exact contents_addEnding before h hne (fun line => content_append (by simp [hspace]))
    fun line => content_append (by simp [hspace]; rfl)

private theorem contents_addIndent (after : Str) {c : Char} (hc : isBlank c = true) :
    contents (c :: after) = contents after := by
  have hne : c ≠ '\n' := fun h => absurd (h ▸ hc) (by decide)
  by_cases hafter : '\n' ∈ after
  · obtain ⟨line, rest, rfl, hline⟩ := List.eq_append_cons_of_mem hafter
    have hboth : '\n' ∉ c :: line := fun hm => (List.mem_cons.mp hm).elim (fun h => hne h.symm) hline
    rw [← List.cons_append, contents_line hboth, contents_line hline, content_cons hc]
  · have hboth : '\n' ∉ c :: after := fun hm => (List.mem_cons.mp hm).elim (fun h => hne h.symm) hafter
    rw [contents_last hboth, contents_last hafter, content_cons hc]

private theorem contents_toCRLF (before after : Str) :
    contents (before ++ '\r' :: '\n' :: after) = contents (before ++ '\n' :: after) :=
  contents_lineEnd before ['\r'] [] (fun line => by rw [content_append rfl, List.append_nil])
    (by decide) (by decide) (.inr ⟨after, rfl⟩)

/-- An edit of the layout changes nothing that is said. -/
theorem Relaid.contents_eq {t t' : Str} (h : Relaid t t') : contents t' = contents t := by
  cases h with
  | insertLine after hstart hline =>
    rw [contents_atLineStart hstart, contents_atLineStart hstart, contents_line hline.1, content_layoutLine hline]
    rfl
  | @insertLast _ line hline =>
    have hnone (l : Str) (h : '\n' ∉ l) : contents (l ++ '\n' :: line) = contents (l ++ []) := by
      rw [List.append_nil, contents_line h, contents_last h, contents_last hline.1, content_layoutLine hline]
      simp
    simpa using contents_congr hnone t
  | addLeading after hstart hc => rw [contents_atLineStart hstart, contents_atLineStart hstart,
      contents_addIndent after hc]
  | dropLeading after hstart hc => rw [contents_atLineStart hstart, contents_atLineStart hstart,
      contents_addIndent after hc]
  | addTrailing before hend hc => exact contents_addBlank _ hend hc
  | dropTrailing before hend hc => exact (contents_addBlank _ hend hc).symm
  | addComment before hend htext =>
    refine contents_addEnding before hend (by simpa using htext) (fun line => content_comment line _) fun line => ?_
    exact content_comment line _
  | toCRLF before after => exact contents_toCRLF before after
  | toLF before after => exact (contents_toCRLF before after).symm

theorem SameLayout.contents_eq {t t' : Str} (h : SameLayout t t') : contents t' = contents t := by
  induction h with
  | refl => rfl
  | tail _ hedit ih => exact hedit.contents_eq.trans ih

private theorem hash_not_blank : isBlank '#' = false := rfl

/-- Stripping the blanks before a line and cutting its comment off may change places. -/
private theorem takeWhile_dropWhile_blank (raw : Str) :
    (raw.dropWhile isBlank).takeWhile (· ≠ '#') = (beforeComment raw).dropWhile isBlank := by
  induction raw with
  | nil => rfl
  | cons c raw ih =>
    by_cases hc : isBlank c = true
    · have hne : c ≠ '#' := by
        rintro rfl
        cases hc
      simpa [beforeComment, hc, hne] using ih
    · by_cases hne : c = '#'
      · simp [beforeComment, hne, hash_not_blank]
      · simp [beforeComment, hc, hne]

private theorem all_space_of_blank {s : Str} (h : s.all isBlank = true) : s.all isSpace = true :=
  List.all_eq_true.mpr fun c hc => by simp [isSpace, List.all_eq_true.mp h c hc]

private theorem beforeComment_of_blank {raw : Str} (h : raw.all isBlank = true) :
    '#' ∉ raw ∧ beforeComment raw = raw := by
  have hnone : '#' ∉ raw := fun hm => absurd (List.all_eq_true.mp h '#' hm) (by decide)
  exact ⟨hnone, beforeComment_of_none hnone⟩

/-- What is left of a line that has more than blanks, before its trailing white space goes. -/
private theorem stripped_of_nonblank {raw : Str} (h : raw.all isBlank = false) :
    stripped raw = eraseTrailing isSpace ((beforeComment raw).dropWhile isBlank) := by
  unfold stripped eraseLeading
  rw [h, if_neg (by simp), takeWhile_dropWhile_blank]
  rfl

/-- A line with something to say is stripped to it. -/
theorem stripped_of_text {raw : Str} (h : (beforeComment raw).all isSpace = false) :
    stripped raw = content raw ∧ ∃ c rest, content raw = c :: rest ∧ isBlank c = false := by
  have hraw : raw.all isBlank = false := by
    by_contra hblank
    have hblank : raw.all isBlank = true := by simpa using hblank
    rw [(beforeComment_of_blank hblank).2, all_space_of_blank hblank] at h
    cases h
  have hleft : ((beforeComment raw).dropWhile isBlank).all isSpace = false := by
    by_contra hspace
    have hspace : ((beforeComment raw).dropWhile isBlank).all isSpace = true := by simpa using hspace
    have hlead : ((beforeComment raw).takeWhile isBlank).all isSpace = true :=
      all_space_of_blank List.all_takeWhile
    rw [← List.takeWhile_append_dropWhile (p := isBlank) (l := beforeComment raw), List.all_append, hlead, hspace] at h
    cases h
  have hstripped : stripped raw = content raw := by
    rw [stripped_of_nonblank hraw, eraseTrailing, hleft, if_neg (by simp)]
    rfl
  refine ⟨hstripped, ?_⟩
  have hprefix : content raw <+: (beforeComment raw).dropWhile isBlank := by
    have hsuffix := List.dropWhile_suffix isSpace (l := ((beforeComment raw).dropWhile isBlank).reverse)
    rw [content]
    simpa using List.reverse_prefix.mpr hsuffix
  cases hcontent : content raw with
  | nil =>
    have hspace : ((beforeComment raw).dropWhile isBlank).reverse.all isSpace = true :=
      List.all_eq_true.mpr (List.dropWhile_eq_nil_iff.mp (List.reverse_eq_nil_iff.mp hcontent))
    rw [List.all_reverse, hleft] at hspace
    cases hspace
  | cons c rest =>
    rw [hcontent] at hprefix
    obtain ⟨behind, hbehind⟩ := hprefix
    have hhead := List.head?_dropWhile_not isBlank (beforeComment raw)
    rw [← hbehind] at hhead
    exact ⟨c, rest, rfl, by simpa using hhead⟩

/-- A line that says nothing is empty, unless it is a white line, which is handed out with its white space. -/
theorem stripped_of_space {raw : Str} (h : (beforeComment raw).all isSpace = true) :
    content raw = [] ∧ (stripped raw).all isSpace = true ∧ (stripped raw ≠ [] ↔ isWhiteLine raw = true) := by
  have hdropped := all_dropWhile (q := isBlank) h
  refine ⟨by rw [content, dropSpaces_all hdropped]; rfl, ?_⟩
  by_cases hraw : raw.all isBlank = true
  · obtain ⟨hnone, hbefore⟩ := beforeComment_of_blank hraw
    have hstripped : stripped raw = raw := by
      unfold stripped eraseLeading
      rw [if_pos hraw]
      change eraseTrailing isSpace (beforeComment raw) = raw
      rw [eraseTrailing, if_pos h, hbefore]
    rw [hstripped, isWhiteLine, hbefore, all_space_of_blank hraw]
    simp [hnone]
  · have hraw : raw.all isBlank = false := by simpa using hraw
    rw [stripped_of_nonblank hraw, eraseTrailing, if_pos hdropped]
    refine ⟨hdropped, ?_⟩
    by_cases hblank : (beforeComment raw).all isBlank = true
    · have hhash : '#' ∈ raw := by
        by_contra hnone
        rw [beforeComment_of_none hnone, hraw] at hblank
        cases hblank
      have hreturn : '\r' ∉ beforeComment raw := fun hm => absurd (List.all_eq_true.mp hblank '\r' hm) (by decide)
      have hnil : (beforeComment raw).dropWhile isBlank = [] :=
        List.dropWhile_eq_nil_iff.mpr (List.all_eq_true.mp hblank)
      simp [hnil, isWhiteLine, hreturn, hhash]
    · have hreturn : '\r' ∈ beforeComment raw := by
        by_contra hnone
        refine hblank (List.all_eq_true.mpr fun c hc => ?_)
        have hspace := List.all_eq_true.mp h c hc
        have hne : c ≠ '\r' := fun hcr => hnone (hcr ▸ hc)
        simpa [isSpace, hne] using hspace
      have hne : beforeComment raw ≠ [] := List.ne_nil_of_mem hreturn
      have hleft : (beforeComment raw).dropWhile isBlank ≠ [] := fun hnil =>
        hblank (List.all_eq_true.mpr (List.dropWhile_eq_nil_iff.mp hnil))
      rw [isWhiteLine, h]
      simp [hleft, hreturn, hne]

/-- The texts of the lines, with none for a line that throws. -/
theorem handed_ofStream (t : Str) (firstLine : Nat) :
    handed (ofStream t firstLine).lines =
      (givenLines t).map fun text => if (text.all fun c => isgraph c || isBlank c) = true then some text else none := by
  unfold ofStream givenLines
  dsimp only
  induction getlines t generalizing firstLine with
  | nil => rfl
  | cons raw lines ih =>
    rw [linesFrom, List.map_cons]
    split_ifs with hraw
    · rw [ih, List.filter_cons_of_neg (by simpa using hraw)]
    · rw [List.filter_cons_of_pos (by simpa using hraw), List.map_cons, handed, List.map_cons, ← handed, ih]
      congr 1
      unfold checked
      split_ifs <;> rfl

/-- Without white lines, what is handed out is what the lines say. -/
theorem givenLines_of_noWhiteLines {t : Str} (h : NoWhiteLines t) : givenLines t = contents t := by
  unfold givenLines contents
  refine congrArg (List.filter _) (List.map_congr_left fun raw hraw => ?_)
  cases hspace : (beforeComment raw).all isSpace with
  | true =>
    obtain ⟨hcontent, -, hwhite⟩ := stripped_of_space hspace
    rw [hcontent]
    by_contra hne
    rw [h raw hraw] at hwhite
    exact absurd (hwhite.mp hne) (by simp)
  | false => exact (stripped_of_text hspace).1

private theorem contents_head {t text : Str} (h : text ∈ contents t) :
    ∃ c rest, text = c :: rest ∧ isBlank c = false := by
  obtain ⟨hmem, hne⟩ := List.mem_filter.mp h
  obtain ⟨raw, -, rfl⟩ := List.mem_map.mp hmem
  cases hspace : (beforeComment raw).all isSpace with
  | true => simp [(stripped_of_space hspace).1] at hne
  | false => exact (stripped_of_text hspace).2

private theorem exists_white {t : Str} (h : ¬NoWhiteLines t) : ∃ text ∈ givenLines t, text ≠ [] ∧
    text.all isSpace = true := by
  simp only [NoWhiteLines, not_forall] at h
  obtain ⟨raw, hraw, hwhite⟩ := h
  have hwhite : isWhiteLine raw = true := by simpa using hwhite
  have hspace : (beforeComment raw).all isSpace = true := by
    simp only [isWhiteLine, Bool.and_eq_true] at hwhite
    exact hwhite.1.1
  obtain ⟨-, hall, hiff⟩ := stripped_of_space hspace
  have hne := hiff.mpr hwhite
  exact ⟨stripped raw, List.mem_filter.mpr ⟨List.mem_map_of_mem hraw, by simpa using hne⟩, hne, hall⟩

end ConfigReadContext

namespace Config
section
variable {asserted : AssertedLink} {nameToAddr : Str → Except SocketAddressError (List Nat)} {readRule : RuleReader}

/-- A white line is refused or leaves a name of blanks behind. -/
private theorem blank_name_of_white (hlink : LinkKeepsNames asserted) (hrule : RuleKeepsNames readRule) {t : Str}
    {c : Config}
    (hwhite : ¬NoWhiteLines t) (h : read asserted nameToAddr readRule t = .ok c) :
    ∃ name ∈ c.nameToCanonicalName.keys, name.all isBlank = true := by
  obtain ⟨texts, hhanded, hgrows⟩ := readSections_grows hlink hrule h
  rw [handed_ofStream] at hhanded
  obtain ⟨text, htext, hne, hspace⟩ := exists_white hwhite
  have hmem := hhanded ▸ List.mem_map_of_mem (f := fun text : Str =>
    if (text.all fun c => isgraph c || isBlank c) = true then some text else none) htext
  obtain ⟨given, hgiven, hsome⟩ := List.mem_map.mp hmem
  split_ifs at hsome with hprintable
  obtain rfl := Option.some.inj hsome
  have hblank : given.all isBlank = true := by
    refine List.all_eq_true.mpr fun c hc => ?_
    have hc1 := List.all_eq_true.mp hspace c hc
    have hc2 := List.all_eq_true.mp hprintable c hc
    rcases Bool.or_eq_true_iff.mp hc1 with hb | hr
    · exact hb
    · obtain rfl : c = '\r' := by simpa using hr
      exact absurd hc2 (by decide)
  exact ⟨given, hgrows.blank given hgiven hne hblank, hblank⟩

/-- Without white lines no name is one of blanks. -/
private theorem no_blank_name (hlink : LinkKeepsNames asserted) (hrule : RuleKeepsNames readRule) {t : Str} {c : Config}
    (hwhite : NoWhiteLines t) (h : read asserted nameToAddr readRule t = .ok c) :
    ∀ name ∈ c.nameToCanonicalName.keys, name.all isBlank = false := by
  intro name hname
  obtain ⟨texts, hhanded, hgrows⟩ := readSections_grows hlink hrule h
  rw [handed_ofStream, givenLines_of_noWhiteLines hwhite] at hhanded
  rcases hgrows.origin name hname with hold | ⟨text, htext, hne, hprefix⟩
  · simp [SortedMap.keys, empty] at hold
  · have hmem := hhanded ▸ List.mem_map_of_mem (f := some) htext
    obtain ⟨given, hgiven, hsome⟩ := List.mem_map.mp hmem
    split_ifs at hsome
    obtain rfl := Option.some.inj hsome
    obtain ⟨c, rest, rfl, hc⟩ := contents_head hgiven
    obtain ⟨d, front, rfl⟩ := List.exists_cons_of_ne_nil hne
    obtain ⟨rfl, -⟩ := List.cons_prefix_cons.mp hprefix
    simp [hc]

end

/-- Layout carries no meaning between texts that hand out the same lines, as texts without white lines do. When
only one of the texts has white lines and one of them can be read, they are not read alike. -/
theorem layout_law_iff (asserted : AssertedLink) (nameToAddr : Str → Except SocketAddressError (List Nat))
    (readRule : RuleReader) (hlink : LinkKeepsNames asserted) (hrule : RuleKeepsNames readRule) {t t' : Str}
    (h : SameLayout t t') :
    (givenLines t = givenLines t' →
      (read asserted nameToAddr readRule t).toOption = (read asserted nameToAddr readRule t').toOption) ∧
    (NoWhiteLines t → NoWhiteLines t' →
      (read asserted nameToAddr readRule t).toOption = (read asserted nameToAddr readRule t').toOption) ∧
    (NoWhiteLines t ∨ NoWhiteLines t' →
      (read asserted nameToAddr readRule t).isOk = true ∨ (read asserted nameToAddr readRule t').isOk = true →
      ((read asserted nameToAddr readRule t).toOption = (read asserted nameToAddr readRule t').toOption ↔
        NoWhiteLines t ∧ NoWhiteLines t')) := by
  have hsame (hgiven : givenLines t = givenLines t') :
      (read asserted nameToAddr readRule t).toOption = (read asserted nameToAddr readRule t').toOption :=
    readSections_same .empty (by rw [handed_ofStream, handed_ofStream, hgiven])
  have hclean (hwhite : NoWhiteLines t) (hwhite' : NoWhiteLines t') : givenLines t = givenLines t' := by
    rw [givenLines_of_noWhiteLines hwhite, givenLines_of_noWhiteLines hwhite', h.contents_eq]
  refine ⟨hsame, fun hwhite hwhite' => hsame (hclean hwhite hwhite'), fun hone hreadable => ?_⟩
  refine ⟨fun hequal => ?_, fun hwhite => hsame (hclean hwhite.1 hwhite.2)⟩
  obtain ⟨c, hc, hc'⟩ : ∃ c, read asserted nameToAddr readRule t = .ok c ∧
      read asserted nameToAddr readRule t' = .ok c := by
    cases hr : read asserted nameToAddr readRule t <;> cases hr' : read asserted nameToAddr readRule t' <;>
      simp_all [Except.toOption, Except.isOk, Except.toBool]
  have hnone {u u' : Str} (hu : read asserted nameToAddr readRule u = .ok c)
      (hu' : read asserted nameToAddr readRule u' = .ok c) (hwhite : NoWhiteLines u) : NoWhiteLines u' := by
    by_contra hwhite'
    obtain ⟨name, hname, hblank⟩ := blank_name_of_white hlink hrule hwhite' hu'
    rw [no_blank_name hlink hrule hwhite hu name hname] at hblank
    cases hblank
  rcases hone with hwhite | hwhite
  · exact ⟨hwhite, hnone hc hc' hwhite⟩
  · exact ⟨hnone hc' hc hwhite, hwhite⟩

def linksSection : Str := "section: links\nend\n".toList

private theorem read_linksSection : read noLink (fun _ => .ok []) noRule linksSection = .ok .empty := by
  have hsection : readSection noLink (fun _ => .ok []) noRule .empty (ofStream linksSection 1) = .ok (.empty, ⟨[],
      3⟩) := rfl
  rw [read, readSections_cons _ (by decide), hsection]
  exact readSections_nil _ rfl

/-- A line of one blank within a section of links is refused. -/
theorem blank_line_refused :
    SameLayout linksSection "section: links\n \nend\n".toList ∧
      (read noLink (fun _ => .ok []) noRule linksSection).toOption ≠
        (read noLink (fun _ => .ok []) noRule "section: links\n \nend\n".toList).toOption := by
  constructor
  · have hline : IsLayoutLine [' '] := ⟨by decide, [' '], by simp [Blanks, isBlank], .inl rfl⟩
    exact Relation.ReflTransGen.single (Relaid.insertLine "end\n".toList (.inr ⟨"section: links".toList, rfl⟩) hline)
  · have hsection : readSection noLink (fun _ => .ok []) noRule .empty
        (ofStream "section: links\n \nend\n".toList 1) = .error ⟨2, "argument before first screen"⟩ := rfl
    rw [read_linksSection, read, readSections_cons _ (by decide), hsection]
    intro h
    cases h

theorem layout_law_iff_indented :
    (read noLink (fun _ => .ok []) noRule linksSection).toOption =
      (read noLink (fun _ => .ok []) noRule "section: links\n\tend\n".toList).toOption := by
  have hedit : Relaid linksSection "section: links\n\tend\n".toList :=
    Relaid.addLeading "end\n".toList (.inr ⟨"section: links".toList, rfl⟩) rfl
  refine (layout_law_iff noLink (fun _ => .ok []) noRule (fun _ _ _ _ _ _ _ h => nomatch h)
    (fun _ _ _ _ _ h => nomatch h)
    (Relation.ReflTransGen.single hedit)).2.1 ?_ ?_
  · unfold NoWhiteLines
    decide
  · unfold NoWhiteLines
    decide

end Config
end Synergy
