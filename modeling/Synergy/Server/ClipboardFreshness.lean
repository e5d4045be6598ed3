import Synergy.Server.ClipboardCopies
import Synergy.Server.ClipboardHeirs

/-! Switches, grabs and updates leave the copies of the clipboards fresh, unless one is
fetched that is too large. -/
namespace Synergy
open Synergy.Lib

namespace Server
variable {e : Platform} {s t u : Server} {c : BaseClientProxy} {deaf : Finset BaseClientProxy} {copies : Copies}

theorem onClipboardChanged_still (s : Server) (sender : BaseClientProxy) (id : ClipboardID) (seqNum : UInt32) :
    ∃ c l, s.onClipboardChanged e sender id seqNum = { s.withContents c with calls := s.calls ++ l } := by
  rcases onClipboardChanged_cases (e := e) s sender id seqNum with ⟨-, c, h, -⟩ | ⟨-, h⟩
  · exact ⟨c, [], by rw [h, List.append_nil]; rfl⟩
  · rw [h]
    exact ⟨_, _, congrArg (fun calls => { s.withContents _ with calls := calls }) (List.append_assoc _ _ _)⟩

/-- What the primary screen owns is fetched on the way out of it. -/
theorem updateClipboards_freshens (s : Server) (hok : ∀ id, (s.clipboards id).owner = s.getName s.primaryClient →
    ¬ s.Oversized e s.primaryClient id) : Freshens deaf s (s.updateClipboards e) := by
  have hall : ∀ (ids : List ClipboardID) (s : Server), (∀ id, (s.clipboards id).owner = s.getName s.primaryClient →
      ¬ s.Oversized e s.primaryClient id) → Freshens deaf s (ids.foldl (updateClipboard e) s) := by
    intro ids
    induction ids with
    | nil => exact fun s _ => .refl s
    | cons id ids ih =>
      intro s hok
      rw [List.foldl_cons]
      have hone : Freshens deaf s (s.updateClipboard e id) := by
        unfold updateClipboard
        split
        · rename_i howner
          exact onClipboardChanged_freshens fun _ => hok id howner
        · exact .refl s
      refine hone.trans (ih _ ?_)
      -- who owns what stays as it is
      unfold updateClipboard
      split
      · obtain ⟨c, l, heq⟩ := onClipboardChanged_still (e := e) s s.primaryClient id (s.clipboards id).seqNum
        rw [heq]
        exact hok
      · exact hok
  exact hall clipboardIds s hok

theorem Calm.freshens (h : s.Calm t) : Freshens deaf s t :=
  .of_saysNo h.sameTable (congrArg (·.2.2.2.2.1) h.sharing) h.clipboard

theorem cutOver_freshens (s : Server) (dst : BaseClientProxy) (x y : Int) (forScreensaver : Bool) :
    Freshens deaf s (s.cutOver e dst x y forScreensaver) := by
  have henter : Freshens deaf s ({ s with active := dst, seqNum := s.seqNum + 1 }.call dst
      (.enter x y (s.seqNum + 1) e.toggleMask forScreensaver)) :=
    .of_saysNo ⟨rfl, ⟨_, rfl⟩, rfl, rfl, rfl, fun _ => .inl rfl⟩ rfl ⟨[(dst, _)], rfl, by simp [Call.isClipboard]⟩
  unfold cutOver
  exact henter.trans (.ite (sendClipboards_freshens _) (.refl _))

/-- A switch, unless it leaves the primary screen with too large a clipboard. -/
theorem switchScreen_freshens (s : Server) (dst : BaseClientProxy) (x y : Int) (forScreensaver : Bool)
    (hok : s.active = s.primaryClient → (s.switchScreen e dst x y forScreensaver).active ≠ s.primaryClient →
      ∀ id, (s.clipboards id).owner = s.getName s.primaryClient → ¬ s.Oversized e s.primaryClient id) :
    Freshens deaf s (s.switchScreen e dst x y forScreensaver) := by
  have hmoved : Freshens deaf s (s.moved x y) := (moved_calm s x y).freshens
  have hcall : ∀ c {m : Call}, m.isClipboard = false → Freshens deaf (s.moved x y) ((s.moved x y).call c m) :=
    fun c m hm => .of_saysNo ⟨rfl, ⟨_, rfl⟩, rfl, rfl, rfl, fun _ => .inl rfl⟩ rfl (.call _ c hm)
  rw [switchScreen_eq] at hok ⊢
  by_cases hdst : s.active = dst
  · rw [if_pos hdst]
    exact hmoved.trans (hcall dst rfl)
  rw [if_neg hdst] at hok ⊢
  by_cases hleaves : s.leaves e s.active = true
  swap
  · rw [if_neg hleaves]
    exact hmoved.trans (hcall s.active rfl)
  rw [if_pos hleaves] at hok ⊢
  have hfiles : ∀ s : Server, Freshens deaf s (s.sendLocalFiles e.draggingPaths) := fun s =>
    (sendLocalFiles_calm s _).freshens
  have hleft : Freshens deaf s (s.left e x y) := hmoved.trans ((hcall s.active rfl).trans (.ite (hfiles _) (.refl _)))
  refine hleft.trans (Freshens.trans ?_ (cutOver_freshens _ dst x y forScreensaver))
  split
  · rename_i hfrom
    obtain ⟨hprimary, hconfig, -, -, hclipboards, -, hsize⟩ := by
      simpa only [Server.sharing, Prod.mk.injEq] using (left_steady (e := e) s x y).sharing
    obtain ⟨l, hl⟩ := cutOver_calls (e := e) ((s.left e x y).updateClipboards e) dst x y forScreensaver
    rw [if_pos hfrom, hl] at hok
    have hgone : dst ≠ s.primaryClient := fun hd => hdst (hfrom.1.trans hd.symm)
    refine updateClipboards_freshens _ ?_
    unfold Oversized getName
    rw [hprimary, hconfig, hclipboards, hsize]
    exact hok hfrom.1 hgone
  · exact .refl _

/-- The clipboards that the primary screen owns, when the cursor leaves it. -/
def leftBehind (s t : Server) : List (BaseClientProxy × ClipboardID) :=
  if s.active = s.primaryClient ∧ t.active ≠ s.primaryClient then
    (clipboardIds.filter fun id => (s.clipboards id).owner = s.getName s.primaryClient).map fun id => (s.primaryClient, id)
  else []

/-- The clipboards that are fetched on an event, with the screens they are fetched from. -/
def fetched (s t : Server) : ServerEvent → List (BaseClientProxy × ClipboardID)
  | .clipboardChanged client id sequenceNumber =>
    if client ∈ s.clientSet ∧ s.Fetches client id sequenceNumber then [(client, id)] else []
  | .clipboardGrabbed client id _ =>
    if client = s.primaryClient ∧ s.active ≠ s.primaryClient ∧ ¬ s.SharingOff then [(client, id)] else []
  | _ => s.leftBehind t

theorem mem_clipboardIds : ∀ id : ClipboardID, id ∈ clipboardIds := by decide

/-- A grab, unless the primary screen is not active and has too large a clipboard. -/
theorem handleClipboardGrabbed_freshens (s : Server) (grabber : BaseClientProxy) (id : ClipboardID) (sequenceNumber : UInt32)
    (hok : grabber = s.primaryClient → s.active ≠ s.primaryClient → ¬ s.SharingOff → ¬ s.Oversized e grabber id) :
    Freshens deaf s (s.handleClipboardGrabbed e grabber id sequenceNumber) := by
  unfold handleClipboardGrabbed
  split
  · exact .refl s
  rename_i hon
  have hsharing : ¬ s.SharingOff := by
    simpa [SharingOff, not_or] using hon
  split
  · exact .refl s
  rename_i hin
  split
  · exact .refl s
  refine (grab_freshens (not_not.mp hin) id sequenceNumber).trans ?_
  dsimp only
  split
  · rename_i hfrom
    exact onClipboardChanged_freshens fun _ => hfrom.1 ▸ hok hfrom.1 hfrom.2 hsharing
  · exact .refl _

/-- An event that neither connects nor disconnects anyone. -/
theorem quiet_freshens {fuel : Nat} {ev : ServerEvent} {m : Motion} (hq : ev.Quiet) (hm : s.handle e fuel ev = some m)
    (hfits : ∀ x ∈ s.fetched m.server ev, ¬ s.Oversized e x.1 x.2) : Freshens deaf s m.server := by
  have hmoves := handle_moves hq hm
  have hpass : s.Passage e m.server → (s.active = s.primaryClient → m.server.active ≠ s.primaryClient →
      ∀ id, (s.clipboards id).owner = s.getName s.primaryClient → ¬ s.Oversized e s.primaryClient id) →
      Freshens deaf s m.server := by
    intro hp hok
    cases hp with
    | calm hc => exact hc.freshens
    | switched u dst x y forScreensaver hu ht =>
      obtain ⟨hprimary, hconfig, -, hactive, hclipboards, -, hsize⟩ := by
        simpa only [Server.sharing, Prod.mk.injEq] using hu.sharing
      refine hu.freshens.trans (Freshens.trans (switchScreen_freshens u dst x y forScreensaver ?_) ht.freshens)
      unfold Oversized getName
      rw [hprimary, hconfig, hactive, hclipboards, hsize, ← ht.steady.active]
      exact hok
  cases ev with
  | clipboardChanged client id sequenceNumber =>
    obtain rfl := Option.some.inj hm
    simp only [stay, handleClipboardChanged]
    split
    · exact .refl s
    · rename_i hin
      exact onClipboardChanged_freshens fun hf => hfits (client, id) (by simp [fetched, not_not.mp hin, hf])
  | clipboardGrabbed client id sequenceNumber =>
    obtain rfl := Option.some.inj hm
    exact handleClipboardGrabbed_freshens s client id sequenceNumber fun hc ha hs =>
      hfits (client, id) (by simp [fetched, hc, ha, hs])
  | _ =>
    refine hpass (handle_passage hq (by simp) (by simp) hm) fun ha hg id howner => hfits (_, id) ?_
    change _ ∈ s.leftBehind m.server
    rw [leftBehind, if_pos ⟨ha, hg⟩]
    exact List.mem_map.mpr ⟨id, List.mem_filter.mpr ⟨mem_clipboardIds id, by simpa using howner⟩, rfl⟩

end Server
end Synergy

/-! Clipboard copies stay fresh along every run, unless an update is fetched that is too
large, or an owner goes away while the copy of the primary screen is dirty. -/
namespace Synergy
open Synergy.Lib

namespace Server

/-- Nothing that is fetched is too large, an owner that is taken out leaves a clear copy
on the primary screen, and a new configuration keeps the names of the clients. -/
structure KeepsCopies (e : Platform) (copies : Copies) (s : Server) (ev : ServerEvent) (t : Server) : Prop where
  fits : ∀ x ∈ s.fetched t ev, ¬ s.Oversized e x.1 x.2
  inherits : ∀ c ∈ s.takenOut ev, s.Inherits copies c
  names : s.KeepsNames ev

instance (e : Platform) (copies : Copies) (s : Server) (ev : ServerEvent) (t : Server) :
    Decidable (KeepsCopies e copies s ev t) :=
  decidable_of_iff ((∀ x ∈ s.fetched t ev, ¬ s.Oversized e x.1 x.2) ∧ (∀ c ∈ s.takenOut ev, s.Inherits copies c) ∧
    s.KeepsNames ev) ⟨fun h => ⟨h.1, h.2.1, h.2.2⟩, fun h => ⟨h.1, h.2, h.3⟩⟩

/-- An update is refused for its number, its sender or its size. -/
def Refuses (e : Platform) (s : Server) : ServerEvent → Prop
  | .clipboardChanged client id sequenceNumber =>
    sequenceNumber < (s.clipboards id).seqNum ∨ s.clients.get? (s.clipboards id).owner ≠ some client ∨
      s.Oversized e client id
  | _ => False

end Server

/-- A server, the proxies that are deaf, and what all of them know of the clipboards. -/
structure Shared where
  server : Server
  deaf : Finset BaseClientProxy
  copies : Copies

namespace Shared
variable {e : Platform} {w w' : Shared}

/-- The copies of the primary screen start clear and all others dirty. -/
def new (e : Platform) (config : Config) (primaryClient : BaseClientProxy) : Shared where
  server := .new e config primaryClient
  deaf := ∅
  copies := copiesAfter ∅ (fun client _ => ⟨client ≠ primaryClient, none⟩) (Server.new e config primaryClient).calls

/-- The proxy of a client that is adopted is a new object, deaf or not. -/
def renewed (w : Shared) (isDeaf : Bool) : ServerEvent → Finset BaseClientProxy × Copies
  | .adoptClient client => (if isDeaf then insert client w.deaf else w.deaf.erase client,
      Function.update w.copies client fun _ => ⟨true, none⟩)
  | _ => (w.deaf, w.copies)

/-- What is known once a server has handled an event. -/
def after (w : Shared) (ev : ServerEvent) (isDeaf : Bool) (t : Server) : Shared where
  server := t
  deaf := (w.renewed isDeaf ev).1
  copies := Server.later (w.renewed isDeaf ev).1 (w.renewed isDeaf ev).2 w.server t

/-- An event, with whether a proxy that is adopted on it is deaf. -/
def Step (w : Shared) (input : (Platform × ServerEvent) × Bool) (w' : Shared) : Prop :=
  w.server.Step input.1 w'.server ∧ w' = w.after input.1.2 input.2 w'.server

/-- One event that keeps the copies fresh. -/
theorem upToDate_step {ev : ServerEvent} {isDeaf : Bool} (h : w.server.UpToDate w.copies)
    (hg : Server.KeepsCopies e w.copies w.server ev w'.server) (hs : w.Step ((e, ev), isDeaf) w') :
    w'.server.UpToDate w'.copies := by
  obtain ⟨⟨hen, fuel, m, hm, hmw⟩, hw⟩ := hs
  have hcopies : w'.copies = _ := congrArg Shared.copies hw
  rw [← hmw] at hg hcopies ⊢
  rw [hcopies]
  by_cases hq : ev.Quiet
  · have hsame : w.renewed isDeaf ev = (w.deaf, w.copies) := by
      cases ev with
      | adoptClient client => exact hq.elim
      | _ => rfl
    rw [after, hsame]
    exact (Server.quiet_freshens hq hm hg.fits).sound _ h
  -- nothing is told of the clipboards as clients come and go
  cases ev with
  | adoptClient client =>
    obtain rfl := Option.some.inj hm
    have hend := (h.update hen.1 fun _ => ⟨true, none⟩).adoptClient e hen.1 fun id => by rw [Function.update_self]
    exact hend.later (Server.adoptClient_unheard hen.1).told
  | clientDisconnected client =>
    obtain rfl := Option.some.inj hm
    exact (h.clientDisconnected hen.2 hg.inherits).later (Server.handleClientDisconnected_saysNo w.server client)
  | clientCloseTimeout client =>
    obtain rfl := Option.some.inj hm
    have hend : (w.server.handleClientCloseTimeout client).UpToDate w.copies :=
      ⟨⟨h.named.primary, h.named.named, h.named.listed, h.named.owner⟩, h.fresh.current, h.fresh.owner, h.fresh.marshalled⟩
    exact hend.later (.of_eq rfl)
  | reloadConfig config =>
    obtain rfl := Option.some.inj hm
    obtain ⟨hsaid, hend⟩ := h.reloadConfig (e := e) hg.inherits hg.names
    exact hend.later hsaid
  | disconnect =>
    obtain rfl := Option.some.inj hm
    obtain ⟨hsaid, hend⟩ := h.disconnect (e := e) hg.inherits
    exact hend.later hsaid
  | _ => exact absurd trivial hq

theorem refused_keeps {ev : ServerEvent} {isDeaf : Bool} (hs : w.Step ((e, ev), isDeaf) w')
    (hfits : ∀ x ∈ w.server.fetched w'.server ev, ¬ w.server.Oversized e x.1 x.2) (hr : Server.Refuses e w.server ev) :
    w'.server.contents = w.server.contents := by
  obtain ⟨⟨-, fuel, m, hm, hmw⟩, -⟩ := hs
  rw [← hmw]
  cases ev with
  | clipboardChanged client id sequenceNumber =>
    obtain rfl := Option.some.inj hm
    change (w.server.handleClipboardChanged e client id sequenceNumber).contents = _
    unfold Server.handleClipboardChanged
    split
    · rfl
    · rename_i hin
      rw [Server.onClipboardChanged_of_not_fetches]
      rintro ⟨hseq, howner⟩
      rcases hr with hold | hnot | hsize
      · exact hseq hold
      · exact hnot howner
      · refine hfits (client, id) ?_ hsize
        simp [Server.fetched, not_not.mp hin, Server.Fetches, hseq, howner]
  | _ => exact hr.elim

/-- The copies are fresh after a step, and an update that is refused changes nothing. -/
def Keeps (w : Shared) (input : (Platform × ServerEvent) × Bool) (w' : Shared) : Prop :=
  w'.server.Fresh w'.copies ∧ (Server.Refuses input.1.1 w.server input.1.2 → w'.server.contents = w.server.contents)

theorem new_upToDate (e : Platform) (config : Config) (primaryClient : BaseClientProxy) :
    (new e config primaryClient).server.UpToDate (new e config primaryClient).copies := by
  have hn := Server.Named.new e config primaryClient
  have hstart := Server.new_unheard e config primaryClient
  have hmoves : Server.Moves (fun _ => False) (fun _ => False) _ (Server.new e config primaryClient) :=
    Server.new_moves e config primaryClient
  have hprimary : (Server.new e config primaryClient).clients.get? (config.getName primaryClient) = some primaryClient := by
    have hlisted := hn.listed (Server.new e config primaryClient).primaryClient hn.primary
    rwa [hmoves.primaryClient, hmoves.getName] at hlisted
  have hcopies : (new e config primaryClient).copies = fun client _ => ⟨client ≠ primaryClient, none⟩ := by
    obtain ⟨l, hcalls, hl⟩ := hstart.told
    change copiesAfter ∅ _ (Server.new e config primaryClient).calls = _
    rw [hcalls]
    exact copiesAfter_of_not_clipboard hl
  refine ⟨hn, fun c hc id hclear => .inl ?_, fun id => ⟨primaryClient, ?_, ?_⟩, fun id => ?_⟩
  · rw [hcopies] at hclear
    obtain rfl : c = primaryClient := by simpa using hclear
    exact (congrArg (fun b => (Server.new e config c).clients.get? (b id).owner) hstart.clipboards).trans hprimary
  · exact (congrArg (fun b => (Server.new e config primaryClient).clients.get? (b id).owner) hstart.clipboards).trans hprimary
  · rw [hcopies]
    simp
  · exact (congrArg (fun b => (b id).data) hstart.clipboards).trans (congrArg (fun b => (b id).clipboard) hstart.clipboards).symm

/-- Along every run whose events keep them fresh, the copies of the clipboards are. -/
theorem copies_fresh (e : Platform) (config : Config) (primaryClient : BaseClientProxy)
    {tr : List (((Platform × ServerEvent) × Bool) × Shared)} (hr : Trace Step (new e config primaryClient) tr)
    (hg : EachStep (fun w input w' => Server.KeepsCopies input.1.1 w.copies w.server input.1.2 w'.server)
      (new e config primaryClient) tr) :
    (new e config primaryClient).server.Fresh (new e config primaryClient).copies ∧
      EachStep Keeps (new e config primaryClient) tr := by
  have h := new_upToDate e config primaryClient
  refine ⟨h.fresh, hr.each (fun w => w.server.UpToDate w.copies) ?_ ?_ h hg⟩
  · exact fun w input w' hw hg hs => ⟨(upToDate_step hw hg hs).fresh, refused_keeps hs hg.fits⟩
  · exact fun w input w' hw hg hs => upToDate_step hw hg hs

/-- The state after an event, or the same state when the fuel does not do. -/
def serve (fuel : Nat) (w : Shared) (input : (Platform × ServerEvent) × Bool) : Shared :=
  w.after input.1.2 input.2 (w.server.serve fuel input.1)

theorem trace_serve {fuel : Nat} {w : Shared} {inputs : List ((Platform × ServerEvent) × Bool)}
    (h : EachStep (fun w input _ => w.server.Served fuel input.1) w (runTrace (serve fuel) w inputs)) :
    Trace Step w (runTrace (serve fuel) w inputs) := by
  induction inputs generalizing w with
  | nil => exact .nil w
  | cons input inputs ih => exact .cons ⟨Server.step_serve h.1, rfl⟩ (ih h.2)

/-- A client grabs a clipboard and fills it, and the cursor goes there and back. -/
theorem copies_fresh_one_client :
    EachStep Keeps (new .still Server.twoScreens ⟨0, ['a']⟩) (runTrace (serve 0) (new .still Server.twoScreens ⟨0, ['a']⟩)
      [((.still, .adoptClient ⟨1, ['b']⟩), false), ((.still, .clipboardGrabbed ⟨1, ['b']⟩ 0 0), false),
        (({ Platform.still with clipboard := fun _ _ => ['x'] }, .clipboardChanged ⟨1, ['b']⟩ 0 0), false),
        ((.still, .switchToScreen ['b']), false), ((.still, .switchToScreen ['a']), false),
        ((.still, .clientDisconnected ⟨1, ['b']⟩), false)]) :=
  (copies_fresh .still Server.twoScreens ⟨0, ['a']⟩ (trace_serve (by decide)) (by decide)).2

/-- The client goes while the primary screen still has a dirty copy of its clipboard. -/
theorem copies_not_fresh :
    ¬ ∀ (e : Platform) (config : Config) (primaryClient : BaseClientProxy)
      (tr : List (((Platform × ServerEvent) × Bool) × Shared)),
      Trace Step (new e config primaryClient) tr → EachStep Keeps (new e config primaryClient) tr := by
  intro h
  have hrun : EachStep Keeps (new .still Server.twoScreens ⟨0, ['a']⟩) (runTrace (serve 0)
      (new .still Server.twoScreens ⟨0, ['a']⟩) [((.still, .adoptClient ⟨1, ['b']⟩), false),
        ((.still, .clipboardGrabbed ⟨1, ['b']⟩ 0 0), false), ((.still, .clientDisconnected ⟨1, ['b']⟩), false)]) :=
    h _ _ _ _ (trace_serve (by decide))
  have hfresh := hrun.imp (R := fun _ _ w' => w'.server.Fresh w'.copies) fun _ _ _ hk => hk.1
  revert hfresh
  decide

end Shared
end Synergy
