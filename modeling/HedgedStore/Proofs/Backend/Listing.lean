import HedgedStore.Proofs.Backend.Keys
import HedgedStore.Proofs.Backend.Session
import HedgedStore.Proofs.Store.Shelf

/-! What a call makes of a listing. It is taken as it is or not at all: one entry that should not be
there, or the word that there is more, turns the whole of it down, and of several things that are
wrong the first one is named. -/
namespace HedgedStore

namespace Backend

variable (backend : Backend) (start : String)

/-- An entry with a key that begins as was asked for. -/
def Wanted (entry : Option String) : Prop :=
  ∃ full, entry = some full ∧ full ≠ "" ∧ (backend.objectKey start).toList <+: full.toList

/-- What is wrong with an entry. -/
inductive Blames : Option String → String → Prop where
  | missing : Blames none "nil key"
  | empty : Blames (some "") "nil key"
  | strange {full : String} (nonempty : full ≠ "")
      (apart : ¬ (backend.objectKey start).toList <+: full.toList) :
      Blames (some full) ("strange response " ++ Text.quote full)

/-- What is wrong with a listing: its first bad entry, and only where there is none that it is cut
short. -/
inductive Objection (listing : Listing) : String → Prop where
  | entry {before after : List (Option String)} {entry : Option String} {reason : String}
      (place : listing.keys = before ++ entry :: after)
      (first : ∀ earlier ∈ before, backend.Wanted start earlier)
      (blamed : backend.Blames start entry reason) : Objection listing reason
  | truncated (wanted : ∀ entry ∈ listing.keys, backend.Wanted start entry)
      (cut : listing.truncated = some true) : Objection listing "response truncated"

theorem objectKey_begins_iff {full : String} :
    (backend.objectKey start).toList <+: full.toList ↔
      ∃ key, full = backend.objectKey key ∧ start.toList <+: key.toList := by
  constructor
  · intro begins
    obtain ⟨rest, rfl⟩ := toList_prefix_iff.mp begins
    exact ⟨start ++ rest, String.append_assoc, toList_prefix_iff.mpr ⟨rest, rfl⟩⟩
  · rintro ⟨key, rfl, begins⟩
    obtain ⟨rest, rfl⟩ := toList_prefix_iff.mp begins
    exact toList_prefix_iff.mpr ⟨rest, String.append_assoc.symm⟩

variable {backend start}

theorem listedKey_eq_ok {entry : Option String} {key : String} :
    backend.listedKey start entry = .ok key ↔
      entry = some (backend.objectKey key) ∧ backend.objectKey key ≠ "" ∧
        start.toList <+: key.toList := by
  constructor
  · intro listed
    cases entry with
    | none => cases listed
    | some full =>
      simp only [listedKey] at listed
      split at listed
      · cases listed
      · rename_i nonempty
        split at listed
        · rename_i rest dropped
          obtain rfl := Except.ok.inj listed
          have whole : full = backend.objectKey (start ++ rest) :=
            (dropStart_eq_some.mp dropped).trans String.append_assoc
          refine ⟨congrArg some whole, ?_, toList_prefix_iff.mpr ⟨rest, rfl⟩⟩
          rw [← whole]
          simpa using nonempty
        · cases listed
  · rintro ⟨rfl, nonempty, begins⟩
    obtain ⟨rest, rfl⟩ := toList_prefix_iff.mp begins
    have whole : backend.objectKey (start ++ rest) = backend.objectKey start ++ rest :=
      String.append_assoc.symm
    rw [whole] at nonempty ⊢
    exact backend.listedKey_append start nonempty

theorem wanted_iff {entry : Option String} :
    backend.Wanted start entry ↔ ∃ key, backend.listedKey start entry = .ok key := by
  constructor
  · rintro ⟨full, rfl, nonempty, begins⟩
    obtain ⟨key, rfl, asked⟩ := (backend.objectKey_begins_iff start).mp begins
    exact ⟨key, listedKey_eq_ok.mpr ⟨rfl, nonempty, asked⟩⟩
  · rintro ⟨key, listed⟩
    obtain ⟨rfl, nonempty, begins⟩ := listedKey_eq_ok.mp listed
    exact ⟨_, rfl, nonempty, (backend.objectKey_begins_iff start).mpr ⟨key, rfl, begins⟩⟩

theorem listedKey_eq_error_iff {entry : Option String} {failure : Failure} :
    backend.listedKey start entry = .error failure ↔
      ∃ reason, failure = .protocol .list start reason ∧ backend.Blames start entry reason := by
  constructor
  · intro failed
    cases entry with
    | none => exact ⟨_, (Except.error.inj failed).symm, .missing⟩
    | some full =>
      simp only [listedKey] at failed
      split at failed
      · rename_i empty
        obtain rfl : full = "" := by simpa using empty
        exact ⟨_, (Except.error.inj failed).symm, .empty⟩
      · rename_i nonempty
        split at failed
        · cases failed
        · rename_i apart
          refine ⟨_, (Except.error.inj failed).symm, .strange (by simpa using nonempty) ?_⟩
          intro begins
          obtain ⟨rest, rfl⟩ := toList_prefix_iff.mp begins
          rw [dropStart_eq_some.mpr rfl] at apart
          cases apart
  · rintro ⟨reason, rfl, blamed⟩
    cases blamed with
    | missing => rfl
    | empty => rfl
    | @strange full nonempty apart =>
      have some_key : full.isEmpty = false := by simpa using nonempty
      have kept : dropStart? (backend.objectKey start) full = none := by
        rw [Option.eq_none_iff_forall_ne_some]
        rintro rest dropped
        exact apart (toList_prefix_iff.mpr ⟨rest, dropStart_eq_some.mp dropped⟩)
      simp only [listedKey, some_key, kept]
      rfl

theorem mapM_listedKey {entries : List (Option String)} {keys : List String} :
    entries.mapM (backend.listedKey start) = .ok keys ↔
      entries = keys.map (fun key => some (backend.objectKey key)) ∧
        ∀ key ∈ keys, backend.objectKey key ≠ "" ∧ start.toList <+: key.toList := by
  constructor
  · intro stripped
    have each := forall₂_of_mapM stripped
    induction each with
    | nil => exact ⟨rfl, nofun⟩
    | @cons entry key entries keys first _ ih =>
      obtain ⟨rfl, proper⟩ := listedKey_eq_ok.mp first
      obtain ⟨rfl, rest⟩ := ih (mapM_eq_ok ‹_›)
      exact ⟨rfl, List.forall_mem_cons.mpr ⟨proper, rest⟩⟩
  · rintro ⟨rfl, proper⟩
    exact mapM_eq_ok (List.forall₂_map_left_iff.mpr
      (List.forall₂_same.mpr fun key member => listedKey_eq_ok.mpr ⟨rfl, proper key member⟩))

theorem callerKeys_of_stripped {listing : Listing} {keys : List String}
    (stripped : listing.keys.mapM (backend.listedKey start) = .ok keys) :
    backend.callerKeys start listing =
      if listing.truncated = some true then .error (.protocol .list start "response truncated")
      else .ok keys := by
  rw [callerKeys, stripped, ok_bind]
  by_cases cut : listing.truncated = some true
  · simp [cut, throw, throwThe, MonadExceptOf.throw]
  · simp [cut]

variable (backend start) in
/-- A listing of proper keys gives them back, unless it is cut short. -/
theorem callerKeys_eq {keys : List String} {truncated : Option Bool}
    (proper : ∀ key ∈ keys, start.toList <+: key.toList ∧ backend.objectKey key ≠ "") :
    backend.callerKeys start ⟨keys.map fun key => some (backend.objectKey key), truncated⟩ =
      if truncated = some true then .error (.protocol .list start "response truncated")
      else .ok keys :=
  callerKeys_of_stripped (mapM_listedKey.mpr ⟨rfl, fun key member => (proper key member).symm⟩)

theorem callerKeys_eq_ok {listing : Listing} {keys : List String} :
    backend.callerKeys start listing = .ok keys ↔
      listing.truncated ≠ some true ∧
        listing.keys = keys.map (fun key => some (backend.objectKey key)) ∧
          ∀ key ∈ keys, backend.objectKey key ≠ "" ∧ start.toList <+: key.toList := by
  rw [← mapM_listedKey]
  cases stripped : listing.keys.mapM (backend.listedKey start) with
  | error why => simp [callerKeys, stripped]
  | ok found =>
    rw [callerKeys_of_stripped stripped]
    by_cases cut : listing.truncated = some true <;> simp [cut]

theorem callerKeys_eq_error_iff {listing : Listing} {failure : Failure} :
    backend.callerKeys start listing = .error failure ↔
      ∃ reason, failure = .protocol .list start reason ∧
        backend.Objection start listing reason := by
  constructor
  · intro failed
    cases stripped : listing.keys.mapM (backend.listedKey start) with
    | error why =>
      rw [callerKeys, stripped] at failed
      obtain rfl := Except.error.inj failed
      obtain ⟨before, entry, after, place, good, bad⟩ := mapM_eq_error_iff.mp stripped
      obtain ⟨reason, rfl, blamed⟩ := listedKey_eq_error_iff.mp bad
      exact ⟨reason, rfl, .entry place (fun earlier member => wanted_iff.mpr (good earlier member))
        blamed⟩
    | ok keys =>
      rw [callerKeys_of_stripped stripped] at failed
      split at failed
      · rename_i cut
        refine ⟨_, (Except.error.inj failed).symm, .truncated (fun entry member => ?_) cut⟩
        obtain ⟨whole, proper⟩ := mapM_listedKey.mp stripped
        rw [whole] at member
        obtain ⟨key, named, rfl⟩ := List.mem_map.mp member
        exact wanted_iff.mpr ⟨key, listedKey_eq_ok.mpr ⟨rfl, proper key named⟩⟩
      · cases failed
  · rintro ⟨reason, rfl, objection⟩
    cases objection with
    | entry place first blamed =>
      have stopped : listing.keys.mapM (backend.listedKey start) =
          .error (.protocol .list start reason) :=
        mapM_eq_error_iff.mpr ⟨_, _, _, place, fun earlier member =>
          wanted_iff.mp (first earlier member), listedKey_eq_error_iff.mpr ⟨reason, rfl, blamed⟩⟩
      rw [callerKeys, stopped, error_bind]
    | truncated wanted cut =>
      obtain ⟨keys, stripped⟩ := mapM_returns fun entry member =>
        wanted_iff.mp (wanted entry member)
      rw [callerKeys_of_stripped stripped, if_pos cut]

/-- The common beginning of all keys ends between two characters of a key that begins with it. -/
theorem listedKey_cuts_clean {full : String} (nonempty : full ≠ "")
    (begins : (backend.objectKey start).toList <+: full.toList) :
    ∃ key, backend.listedKey start (some full) = .ok key ∧
      String.Pos.Raw.IsValid full ⟨backend.keyPrefix.utf8ByteSize⟩ ∧
        full.toByteArray = backend.keyPrefix.toByteArray ++ key.toByteArray := by
  obtain ⟨key, rfl, asked⟩ := (backend.objectKey_begins_iff start).mp begins
  refine ⟨key, listedKey_eq_ok.mpr ⟨rfl, nonempty, asked⟩, ?_, String.toByteArray_append⟩
  exact String.Pos.Raw.isValid_iff_exists_append.mpr ⟨backend.keyPrefix, key, rfl, rfl⟩

end Backend

namespace Session

open Summary (Fault)

variable {σ : Type} {session : Session σ}

/-- A listing is accepted just where all of it is what was asked for. -/
theorem list_accepts_exactly {start : String} {listing : Listing} {course : Course Listing}
    {store : σ}
    (settled : session.link.settle session.backend.maxAttempts Answer.listed
      (session.backend.listRequest start) session.store = (course, store))
    (answered : course.result = .ok listing) :
    ∃ result, session.Ends (session.list start) result store course.takes ∧
      (∀ keys, result = .ok keys ↔
        listing.truncated ≠ some true ∧
          listing.keys = keys.map (fun key => some (session.backend.objectKey key)) ∧
            ∀ key ∈ keys, session.backend.objectKey key ≠ "" ∧ start.toList <+: key.toList) ∧
      (∀ failure, result = .error failure ↔ ∃ reason, failure = .protocol .list start reason ∧
        session.backend.Objection start listing reason) ∧
      ∀ full, full ≠ "" → (session.backend.objectKey start).toList <+: full.toList →
        ∃ key, session.backend.listedKey start (some full) = .ok key ∧
          String.Pos.Raw.IsValid full ⟨session.backend.keyPrefix.utf8ByteSize⟩ ∧
            full.toByteArray = session.backend.keyPrefix.toByteArray ++ key.toByteArray := by
  have ends := call_ends _ _ (session.backend.listed start) settled
  rw [answered] at ends
  exact ⟨_, ends, fun keys => Backend.callerKeys_eq_ok,
    fun failure => Backend.callerKeys_eq_error_iff,
    fun full nonempty begins => Backend.listedKey_cuts_clean nonempty begins⟩

def mixedKeys : List String := ["lög/ä/1", "log/ä/2", ""]

/-- A listing that is cut short, with a key from elsewhere and an empty one. -/
def mixedAnswer : Answer where
  status := 200
  body := (Listing.written mixedKeys true).toUTF8.data.toList

def mixedLink : Link Unit := ⟨fun _ _ => (⟨some mixedAnswer, ⟨0⟩⟩, ())⟩

/-- The key from elsewhere comes first, so that is what the listing is turned down for. -/
theorem list_accepts_exactly_names_first :
    ∃ session next,
      Session.create { region := "here", bucket := "objects" } (Shelf.backend "lög/" false) mixedLink
        () ⟨0⟩ = .ok session ∧
      session.list "ä" =
        .ok (.error (.protocol .list "ä" ("strange response " ++ Text.quote "log/ä/2")), next) := by
  have room : StoreMetrics.HasRoom ⟨0⟩ := by
    unfold StoreMetrics.HasRoom
    decide
  obtain ⟨session, opened⟩ := create_returns room { region := "here", bucket := "objects" }
    (Shelf.backend "lög/" false) mixedLink ()
  obtain ⟨at_backend, over_link, -, started, regular⟩ := create_spec opened
  let listing : Listing := ⟨mixedKeys.map some, some true⟩
  have exchanged : session.link.exchange session.store (session.backend.listRequest "ä") =
      (⟨some mixedAnswer, ⟨0⟩⟩, ()) := by
    rw [over_link]
    rfl
  have succeeds : (session.link.exchange session.store
      (session.backend.listRequest "ä")).1.Succeeds mixedAnswer := by
    rw [exchanged]
    exact ⟨rfl, rfl, rfl⟩
  have body : mixedAnswer.body = (Listing.written mixedKeys true).toUTF8.data.toList := by
    rw [mixedAnswer]
  have read : mixedAnswer.listing? = some listing := Answer.listing?_written body
  have settled := Link.settle_of_success (session.backend.listRequest_sendable "ä")
    (succeeds.verdict_listed read) session.backend.maxAttempts
  rw [exchanged] at settled
  obtain ⟨result, ends, -, refuses, -⟩ := list_accepts_exactly settled rfl
  have objection : session.backend.Objection "ä" listing
      ("strange response " ++ Text.quote "log/ä/2") := by
    rw [at_backend]
    have place : listing.keys = [some "lög/ä/1"] ++ some "log/ä/2" :: [some ""] := rfl
    refine .entry place ?_ (.strange (by decide) (by decide))
    exact List.forall_mem_singleton.mpr ⟨_, rfl, by decide, by decide⟩
  obtain rfl := (refuses _).mpr ⟨_, rfl, objection⟩
  obtain ⟨next, listed, -⟩ := ends.returns (regular room) (by rw [started]; exact room)
  exact ⟨session, next, opened, listed⟩

end Session

end HedgedStore
