import HedgedStore.Proofs.Backend.Listing
import HedgedStore.Proofs.Store.Record
import Mathlib.Data.List.Nodup

/-! A backend is a map from keys to bytes. Whatever calls are made one after another, each of them
answers as the map does that the calls before have left behind: compressed or not, hedged or not,
and wherever in the bucket the backend keeps its objects. -/
namespace HedgedStore

/-- The object holds the data, as they are or as a gzip stream. -/
def StoredObject.Keeps (object : StoredObject) (data : Bytes) : Prop :=
  object = ⟨data, none⟩ ∨ object = ⟨Gzip.gzip data, some Gzip.encodingName⟩

abbrev PlainMap := String → Option Bytes

inductive Call where
  | upload (key : String) (data : Bytes) (options : UploadOptions)
  | fetch (key : String)
  | list (start : String)
  | delete (key : String)

inductive Reply where
  | done (result : Except Failure Unit)
  | bytes (result : Except Failure Bytes)
  | names (result : Except Failure (List String))

namespace Call

/-- A key that is not empty in the bucket, and no condition on a write. -/
def Admissible (backend : Backend) : Call → Prop
  | upload key _ options =>
    backend.objectKey key ≠ "" ∧ (options.immutable && backend.conditionalWrites) = false
  | fetch key | delete key => backend.objectKey key ≠ ""
  | list _ => True

/-- The store can be asked for it. -/
def isSpeakable : Call → Bool
  | upload _ _ options => options.isSpeakable
  | fetch _ | list _ | delete _ => true

/-- What a call makes of the map. An upload that cannot be sent makes nothing of it. -/
def after (contents : PlainMap) : Call → PlainMap
  | upload key data options =>
    if options.isSpeakable then Function.update contents key (some data) else contents
  | delete key => Function.update contents key none
  | fetch _ | list _ => contents

end Call

/-- The reply to a call is the one that the map gives. A list that is longer than a page of the
store's is refused. -/
def Reply.Fits (page : Nat) (before : String → String → Prop) (backend : Backend)
    (contents : PlainMap) : Call → Reply → Prop
  | .upload key _ options, .done result =>
    if options.isSpeakable then result = .ok ()
    else ∃ detail cause, result = .error (.network .upload key none detail cause)
  | .fetch key, .bytes result =>
    match contents key with
    | some data => result = .ok data
    | none => ∃ detail cause, result = .error (.network .fetch key (some 404) detail cause)
  | .list start, .names result =>
    ∃ keys : List String, keys.Nodup ∧
      keys.Pairwise (fun a b => before (backend.objectKey a) (backend.objectKey b)) ∧
      (∀ key, key ∈ keys ↔ start.toList <+: key.toList ∧ contents key ≠ none) ∧
      result = if page < keys.length then .error (.protocol .list start "response truncated")
        else .ok keys
  | .delete _, .done result => result = .ok ()
  | _, _ => False

theorem Reply.Fits.unspeakable {page : Nat} {before : String → String → Prop} {backend : Backend}
    {contents : PlainMap} {key : String} {data : Bytes} {options : UploadOptions} {reply : Reply}
    (fits : reply.Fits page before backend contents (.upload key data options))
    (silent : options.isSpeakable = false) :
    ∃ detail cause, reply = .done (.error (.network .upload key none detail cause)) := by
  cases reply with
  | done result =>
    simp only [Fits, silent, Bool.false_eq_true, if_false] at fits
    obtain ⟨detail, cause, rfl⟩ := fits
    exact ⟨detail, cause, rfl⟩
  | bytes result | names result => exact fits.elim

theorem Reply.Fits.missing {page : Nat} {before : String → String → Prop} {backend : Backend}
    {contents : PlainMap} {key : String} {reply : Reply}
    (fits : reply.Fits page before backend contents (.fetch key)) (unknown : contents key = none) :
    ∃ detail cause, reply = .bytes (.error (.network .fetch key (some 404) detail cause)) := by
  cases reply with
  | bytes result =>
    simp only [Fits, unknown] at fits
    obtain ⟨detail, cause, rfl⟩ := fits
    exact ⟨detail, cause, rfl⟩
  | done result | names result => exact fits.elim

/-- What comes of a call. -/
structure Dealing where
  reply : Reply
  /-- What passes over the link meanwhile. -/
  passed : List (Request × Exchange)

/-- The reply is the one that the map gives, and nothing is sent of a call that cannot be. -/
structure Dealing.Fits (page : Nat) (before : String → String → Prop) (backend : Backend)
    (contents : PlainMap) (call : Call) (dealing : Dealing) : Prop where
  reply : dealing.reply.Fits page before backend contents call
  unsent : call.isSpeakable = false → dealing.passed = []

def Faithful (page : Nat) (before : String → String → Prop) (backend : Backend) :
    PlainMap → List Call → List Dealing → Prop
  | _, [], [] => True
  | contents, call :: calls, dealing :: dealings =>
    dealing.Fits page before backend contents call ∧
      Faithful page before backend (call.after contents) calls dealings
  | _, _, _ => False

/-- The objects of a backend hold the data of the map, and nothing else begins as its keys do. -/
def Mirrors (backend : Backend) (objects : String → Option StoredObject) (contents : PlainMap) :
    Prop :=
  ∀ key, match contents key with
    | some data => backend.objectKey key ≠ "" ∧
        ∃ object, objects (backend.objectKey key) = some object ∧ object.Keeps data
    | none => objects (backend.objectKey key) = none

section Mirrors

variable {backend : Backend} {objects : String → Option StoredObject} {contents : PlainMap}

theorem objectKey_inj {key other : String} :
    backend.objectKey key = backend.objectKey other ↔ key = other :=
  String.append_right_inj backend.keyPrefix

theorem Mirrors.present (mirrors : Mirrors backend objects contents) {key : String} {data : Bytes}
    (there : contents key = some data) :
    backend.objectKey key ≠ "" ∧
      ∃ object, objects (backend.objectKey key) = some object ∧ object.Keeps data := by
  have found := mirrors key
  rwa [there] at found

theorem Mirrors.absent (mirrors : Mirrors backend objects contents) {key : String}
    (missing : contents key = none) : objects (backend.objectKey key) = none := by
  have found := mirrors key
  rwa [missing] at found

theorem Mirrors.ne_none (mirrors : Mirrors backend objects contents) {key : String} :
    objects (backend.objectKey key) ≠ none ↔ contents key ≠ none := by
  cases there : contents key with
  | none => simp [mirrors.absent there]
  | some data =>
    obtain ⟨-, object, found, -⟩ := mirrors.present there
    simp [found]

theorem Mirrors.put (mirrors : Mirrors backend objects contents) {key : String}
    (nonempty : backend.objectKey key ≠ "") {object : StoredObject} {data : Bytes}
    (keeps : object.Keeps data) :
    Mirrors backend (Function.update objects (backend.objectKey key) (some object))
      (Function.update contents key (some data)) := by
  intro other
  by_cases same : other = key
  · subst same
    simp only [Function.update_self]
    exact ⟨nonempty, object, rfl, keeps⟩
  · have apart : backend.objectKey other ≠ backend.objectKey key :=
      fun h => same (objectKey_inj.mp h)
    simp only [Function.update_of_ne same, Function.update_of_ne apart]
    exact mirrors other

theorem Mirrors.erase (mirrors : Mirrors backend objects contents) (key : String) :
    Mirrors backend (Function.update objects (backend.objectKey key) none)
      (Function.update contents key none) := by
  intro other
  by_cases same : other = key
  · subst same
    simp only [Function.update_self]
  · have apart : backend.objectKey other ≠ backend.objectKey key :=
      fun h => same (objectKey_inj.mp h)
    simp only [Function.update_of_ne same, Function.update_of_ne apart]
    exact mirrors other

/-- The names in a catalogue of the backend's objects are keys of the map, as the store has them. -/
theorem Mirrors.catalogue (mirrors : Mirrors backend objects contents)
    {before : String → String → Prop} {start : String} {names : List String}
    (catalogue : Catalogue objects before (backend.objectKey start) names) :
    ∃ keys : List String, names = keys.map backend.objectKey ∧ keys.Nodup ∧
      keys.Pairwise (fun a b => before (backend.objectKey a) (backend.objectKey b)) ∧
      ∀ key, key ∈ keys ↔ start.toList <+: key.toList ∧ contents key ≠ none := by
  have all_keys : names ∈ Set.range (List.map backend.objectKey) := by
    rw [Set.range_list_map]
    intro name member
    obtain ⟨rest, rfl⟩ := toList_prefix_iff.mp ((catalogue.mem_iff name).mp member).1
    exact ⟨start ++ rest, String.append_assoc.symm⟩
  obtain ⟨keys, rfl⟩ := all_keys
  refine ⟨keys, rfl, List.Nodup.of_map _ catalogue.nodup, List.pairwise_map.mp catalogue.ordered, ?_⟩
  intro key
  have member : key ∈ keys ↔ backend.objectKey key ∈ keys.map backend.objectKey :=
    (List.mem_map_of_injective fun _ _ h => objectKey_inj.mp h).symm
  have begins : (backend.objectKey start).toList <+: (backend.objectKey key).toList ↔
      start.toList <+: key.toList := by
    simp [Backend.objectKey, List.prefix_append_right_inj]
  rw [member, catalogue.mem_iff, begins, mirrors.ne_none]

end Mirrors

/-! Calls one after another. -/

namespace Session

open Summary (Fault)
open StoreMetrics (HasRoom)

variable {σ : Type}

def make (session : Session σ) : Call → Except Fault (Reply × Session σ)
  | .upload key data options => do
    let (result, session) ← session.upload key data options
    return (.done result, session)
  | .fetch key => do
    let (result, session) ← session.fetch key
    return (.bytes result, session)
  | .list start => do
    let (result, session) ← session.list start
    return (.names result, session)
  | .delete key => do
    let (result, session) ← session.delete key
    return (.done result, session)

/-- Serves calls one after another over a link that writes down what passes over it. -/
def serve (session : Session (σ × List (Request × Exchange))) :
    List Call → Except Fault (List Dealing × Session (σ × List (Request × Exchange)))
  | [] => .ok ([], session)
  | call :: calls => do
    let (reply, next) ← session.make call
    let (dealings, last) ← next.serve calls
    return (⟨reply, next.store.2.drop session.store.2.length⟩ :: dealings, last)

/-- The longest that a call can take on a link whose exchanges take so long at most. -/
def patience (backend : Backend) (longest : Nat) : Nat :=
  backend.hedgeDelay.nanos + max backend.maxAttempts 1 * longest

section Make

variable {α β : Type} {session : Session σ} {link : Link σ}
  {holds : σ → String → Option StoredObject} {page : Nat} {before : String → String → Prop}
  {contents : PlainMap}

theorem Ends.map {run : Except Fault (α × Session σ)} {result : α} {store : σ} {takes : Nat}
    (ends : session.Ends run result store takes) (f : α → β) :
    session.Ends (do let (result, session) ← run; return (f result, session)) (f result) store
      takes where
  spec := by
    intro returned next ran
    obtain ⟨⟨first, last⟩, done, ran⟩ := bind_eq_ok.mp ran
    obtain ⟨rfl, rfl⟩ := Prod.mk.inj (Except.ok.inj ran)
    obtain ⟨rfl, passed⟩ := ends.spec first last done
    exact ⟨rfl, passed⟩
  returns := by
    intro regular room
    obtain ⟨next, done, later⟩ := ends.returns regular room
    exact ⟨next, by rw [done]; rfl, later⟩

/-- How a call on a backend that mirrors a map ends: with the map's reply, and with a store that
mirrors what the call has made of the map. The store does not learn of a call that cannot be sent. -/
def Answers (session : Session σ) (holds : σ → String → Option StoredObject) (page : Nat)
    (before : String → String → Prop) (contents : PlainMap) (call : Call) : Prop :=
  ∃ reply store takes, session.Ends (session.make call) reply store takes ∧
    reply.Fits page before session.backend contents call ∧
    Mirrors session.backend (holds store) (call.after contents) ∧
    (call.isSpeakable = false → store = session.store) ∧
    ∀ longest, session.link.Prompt longest → takes ≤ patience session.backend longest

theorem settle_patience {read : Answer → Verdict β} {request : Request} {course : Course β}
    {store : σ}
    (settled : session.link.settle session.backend.maxAttempts read request session.store =
      (course, store)) (longest : Nat) (prompt : session.link.Prompt longest) :
    course.takes ≤ patience session.backend longest := by
  have bound := prompt.settle_takes session.backend.maxAttempts read request session.store
  rw [settled] at bound
  exact Nat.le_trans bound (Nat.le_add_left _ _)

theorem unpack_keeps {object : StoredObject} {data : Bytes} (keeps : object.Keeps data)
    (key : String) (length : Option Nat) :
    Backend.unpack key ⟨object.encoding, length, object.body, true⟩ = .ok data := by
  rcases keeps with rfl | rfl
  · rfl
  · simp [Backend.unpack, Gzip.gunzip_gzip]

/-- A call of one request answers as the map does if what it makes of the settled request is the
map's reply, and if the store that is left mirrors the map after the call. -/
theorem call_answers {call : Call} {request : Request} {read : Answer → Verdict β}
    {conclude : Except Refusal β → Except Failure α × List Effect} (reply : Except Failure α → Reply)
    (speakable : call.isSpeakable = true)
    (made : session.make call = do
      let (result, next) ← session.call request read conclude
      return (reply result, next))
    (fits : (reply (conclude (session.link.settle session.backend.maxAttempts read request
      session.store).1.result).1).Fits page before session.backend contents call)
    (mirrors : Mirrors session.backend (holds (session.link.settle session.backend.maxAttempts read
      request session.store).2) (call.after contents)) :
    session.Answers holds page before contents call := by
  have called : session.Ends (session.call request read conclude) _ _ _ :=
    call_ends request read conclude rfl
  have ends := called.map reply
  rw [← made] at ends
  refine ⟨_, _, _, ends, fits, mirrors, fun silent => ?_, settle_patience rfl⟩
  cases speakable.symm.trans silent

theorem fetch_answers
    (keeps : session.link.KeepsObjects session.backend.bucket holds page before)
    (mirrors : Mirrors session.backend (holds session.store) contents) {key : String}
    (nonempty : session.backend.objectKey key ≠ "") :
    session.Answers holds page before contents (.fetch key) := by
  have concerns := session.backend.fetchRequest_concerns key
  have sendable := session.backend.fetchRequest_sendable nonempty
  cases there : contents key with
  | some data =>
    obtain ⟨-, object, found, unpacks⟩ := mirrors.present there
    obtain ⟨⟨length, result⟩, kept⟩ :=
      keeps.settle_read concerns sendable session.backend.maxAttempts found
    refine call_answers .bytes rfl rfl ?_ (kept ▸ mirrors)
    simp only [Reply.Fits, there, result, Backend.fetched]
    exact unpack_keeps unpacks key length
  | none =>
    obtain ⟨⟨why, result, status⟩, kept⟩ :=
      keeps.settle_miss concerns sendable session.backend.maxAttempts (mirrors.absent there)
    refine call_answers .bytes rfl rfl ?_ (kept ▸ mirrors)
    simp only [Reply.Fits, there, result, Backend.fetched]
    exact ⟨why.detail, why.cause, by simp [Backend.refused, status]⟩

theorem list_answers
    (keeps : session.link.KeepsObjects session.backend.bucket holds page before)
    (mirrors : Mirrors session.backend (holds session.store) contents) (start : String) :
    session.Answers holds page before contents (.list start) := by
  have concerns := session.backend.listRequest_concerns start
  have sendable := session.backend.listRequest_sendable start
  obtain ⟨⟨listing, names, result, ⟨shown, cut⟩, catalogue⟩, kept⟩ :=
    keeps.settle_list concerns sendable rfl session.backend.maxAttempts session.store
  obtain ⟨keys, rfl, nodup, ordered, mem_iff⟩ := mirrors.catalogue catalogue
  refine call_answers .names rfl rfl ⟨keys, nodup, ordered, mem_iff, ?_⟩ (kept ▸ mirrors)
  have proper : ∀ key ∈ keys.take page,
      start.toList <+: key.toList ∧ session.backend.objectKey key ≠ "" := by
    intro key member
    obtain ⟨begins, there⟩ := (mem_iff key).mp (List.mem_of_mem_take member)
    obtain ⟨data, found⟩ := Option.ne_none_iff_exists'.mp there
    exact ⟨begins, (mirrors.present found).1⟩
  have shown_keys : listing.keys =
      (keys.take page).map fun key => some (session.backend.objectKey key) := by
    rw [shown, ← List.map_take, List.map_map]
    rfl
  have page_keys : listing =
      ⟨(keys.take page).map fun key => some (session.backend.objectKey key), listing.truncated⟩ := by
    rw [← shown_keys]
  rw [List.length_map] at cut
  simp only [result, Backend.listed]
  rw [page_keys, session.backend.callerKeys_eq start proper]
  by_cases long : page < keys.length
  · rw [if_pos (cut.mpr long), if_pos long]
  · rw [if_neg (fun flag => long (cut.mp flag)), if_neg long,
      List.take_of_length_le (Nat.le_of_not_lt long)]

theorem delete_answers
    (keeps : session.link.KeepsObjects session.backend.bucket holds page before)
    (mirrors : Mirrors session.backend (holds session.store) contents) {key : String}
    (nonempty : session.backend.objectKey key ≠ "") :
    session.Answers holds page before contents (.delete key) := by
  have concerns := session.backend.deleteRequest_concerns key
  have sendable := session.backend.deleteRequest_sendable nonempty
  obtain ⟨result, kept⟩ :=
    keeps.settle_delete concerns sendable session.backend.maxAttempts session.store
  refine call_answers .done rfl rfl ?_ (kept ▸ mirrors.erase key)
  simp only [Reply.Fits, result]
  rfl

/-- A second attempt at an upload finds the object there and puts the same one in its place. -/
theorem overwrites_again {bucket name : String} {request : Request}
    (overwrites : session.link.Overwrites bucket holds) (writes : request.Writes bucket name)
    (free : request.header? "if-match" = none) (sendable : request.isSendable = true)
    (attempts delay : Nat) {primary : Course Unit} {mid : σ}
    (settled : session.link.settle attempts Answer.accepted request session.store = (primary, mid)) :
    ∃ hedge last, (if delay < primary.takes then
        session.link.settle attempts Answer.accepted request mid
      else (({ result := primary.result, exchanges := [] } : Course Unit), mid)) = (hedge, last) ∧
      primary.result = .ok () ∧ hedge.result = .ok () ∧
      holds last = Function.update (holds session.store) name (some request.object) ∧
      ∀ longest, session.link.Prompt longest → hedge.takes ≤ max attempts 1 * longest := by
  obtain ⟨result, kept⟩ := overwrites.settle writes free sendable attempts session.store
  rw [settled] at result kept
  dsimp only at result kept
  by_cases slow : delay < primary.takes
  · obtain ⟨result_again, kept_again⟩ := overwrites.settle writes free sendable attempts mid
    obtain ⟨hedge, last, again⟩ : ∃ hedge last,
      session.link.settle attempts Answer.accepted request mid = (hedge, last) := ⟨_, _, rfl⟩
    rw [again] at result_again kept_again
    refine ⟨hedge, last, (if_pos slow).trans again, result, result_again, ?_,
      fun longest prompt => ?_⟩
    · exact kept_again.trans (by rw [kept, Function.update_idem])
    · have bound := prompt.settle_takes attempts Answer.accepted request mid
      rwa [again] at bound
  · exact ⟨_, _, if_neg slow, result, result, kept, fun longest _ => Nat.zero_le _⟩

theorem sent_upload_answers
    (keeps : session.link.KeepsObjects session.backend.bucket holds page before)
    (mirrors : Mirrors session.backend (holds session.store) contents) {key : String}
    (nonempty : session.backend.objectKey key ≠ "") (data : Bytes) {options : UploadOptions}
    (free : (options.immutable && session.backend.conditionalWrites) = false)
    (speakable : options.isSpeakable = true) :
    session.Answers holds page before contents (.upload key data options) := by
  let body := options.wireBody data
  let request := session.backend.putRequest key body options
  have sendable : request.isSendable = true :=
    (session.backend.putRequest_sendable nonempty body options).trans speakable
  have condition : request.header? "if-match" = none := by
    simp [request, Backend.putRequest_condition, free]
  have object : request.object.Keeps data := by
    simp only [request, Backend.putRequest_object, body, UploadOptions.wireBody]
    cases options.compress
    · exact .inl rfl
    · exact .inr rfl
  have writes := session.backend.putRequest_writes key body options
  obtain ⟨primary, mid, first⟩ : ∃ primary mid, session.link.settle session.backend.maxAttempts
    Answer.accepted request session.store = (primary, mid) := ⟨_, _, rfl⟩
  obtain ⟨hedge, last, second, result, result_again, kept, hedge_takes⟩ :=
    overwrites_again keeps.overwrites writes condition sendable session.backend.maxAttempts
      session.backend.hedgeDelay.nanos first
  obtain ⟨takes, bound, ends⟩ := upload_ends key data options first second
    (result_again.trans result.symm)
  refine ⟨_, _, _, ends.map Reply.done, ?_, ?_, fun silent => ?_, fun longest prompt => ?_⟩
  · simp only [Reply.Fits, speakable, if_true, result]
    rfl
  · simp only [Call.after, speakable, if_true, kept]
    exact mirrors.put nonempty object
  · cases speakable.symm.trans silent
  · have once := settle_patience first longest prompt
    have twice := hedge_takes longest prompt
    simp only [patience] at once ⊢
    omega

theorem unsent_upload_answers (mirrors : Mirrors session.backend (holds session.store) contents)
    {key : String} (nonempty : session.backend.objectKey key ≠ "") (data : Bytes)
    {options : UploadOptions} (speakable : options.isSpeakable = false) :
    session.Answers holds page before contents (.upload key data options) := by
  let request := session.backend.putRequest key (options.wireBody data) options
  have unsendable : request.isSendable = false :=
    (session.backend.putRequest_sendable nonempty _ options).trans speakable
  have first : session.link.settle session.backend.maxAttempts Answer.accepted request
      session.store = (⟨.error Link.unsendable, []⟩, session.store) :=
    Link.settle_of_unsendable unsendable _
  obtain ⟨takes, bound, ends⟩ := upload_ends key data options first (if_neg (Nat.not_lt_zero _)) rfl
  refine ⟨_, _, _, ends.map Reply.done, ?_, ?_, fun _ => rfl, fun longest _ => ?_⟩
  · simp only [Reply.Fits, speakable]
    exact ⟨_, _, rfl⟩
  · simp only [Call.after, speakable]
    exact mirrors
  · have nothing : (⟨.error Link.unsendable, []⟩ : Course Unit).takes = 0 := rfl
    simp only [patience, nothing] at bound ⊢
    omega

theorem make_answers
    (keeps : session.link.KeepsObjects session.backend.bucket holds page before)
    (mirrors : Mirrors session.backend (holds session.store) contents) {call : Call}
    (admissible : call.Admissible session.backend) :
    session.Answers holds page before contents call := by
  cases call with
  | upload key data options =>
    cases speakable : options.isSpeakable with
    | true => exact sent_upload_answers keeps mirrors admissible.1 data admissible.2 speakable
    | false => exact unsent_upload_answers mirrors admissible.1 data speakable
  | fetch key => exact fetch_answers keeps mirrors admissible
  | list start => exact list_answers keeps mirrors start
  | delete key => exact delete_answers keeps mirrors admissible

end Make

section Serve

variable {link : Link σ} {backend : Backend} {holds : σ → String → Option StoredObject}
  {page : Nat} {before : String → String → Prop}

theorem answers_of_mirrors (keeps : link.KeepsObjects backend.bucket holds page before)
    {session : Session (σ × List (Request × Exchange))} (at_backend : session.backend = backend)
    (over_link : session.link = link.recorded) {contents : PlainMap}
    (mirrors : Mirrors backend (holds session.store.1) contents) {call : Call}
    (admissible : call.Admissible backend) :
    session.Answers (fun store => holds store.1) page before contents call := by
  subst at_backend
  exact make_answers (over_link ▸ keeps.recorded) mirrors admissible

theorem serve_cons {session last : Session (σ × List (Request × Exchange))} {call : Call}
    {calls : List Call} {dealings : List Dealing}
    (served : session.serve (call :: calls) = .ok (dealings, last)) :
    ∃ reply later next, session.make call = .ok (reply, next) ∧
      next.serve calls = .ok (later, last) ∧
      dealings = ⟨reply, next.store.2.drop session.store.2.length⟩ :: later := by
  obtain ⟨⟨reply, next⟩, made, served⟩ := bind_eq_ok.mp served
  obtain ⟨⟨later, last⟩, rest, served⟩ := bind_eq_ok.mp served
  obtain ⟨rfl, rfl⟩ := Prod.mk.inj (Except.ok.inj served)
  exact ⟨reply, later, next, made, rest, rfl⟩

/-- A session that mirrors a map replies as the map does, and mirrors what becomes of the map. -/
theorem serve_faithful (keeps : link.KeepsObjects backend.bucket holds page before)
    (calls : List Call) (admissible : ∀ call ∈ calls, call.Admissible backend)
    {session : Session (σ × List (Request × Exchange))} (at_backend : session.backend = backend)
    (over_link : session.link = link.recorded) {contents : PlainMap}
    (mirrors : Mirrors backend (holds session.store.1) contents) {dealings : List Dealing}
    {last : Session (σ × List (Request × Exchange))}
    (served : session.serve calls = .ok (dealings, last)) :
    Faithful page before backend contents calls dealings := by
  induction calls generalizing session contents dealings with
  | nil =>
    obtain ⟨rfl, rfl⟩ := Prod.mk.inj (Except.ok.inj served)
    trivial
  | cons call calls ih =>
    obtain ⟨reply, store, takes, ends, fits, later, untouched, -⟩ :=
      answers_of_mirrors keeps at_backend over_link mirrors (admissible call (by simp))
    rw [at_backend] at fits later
    obtain ⟨reply, rest, next, made, served_rest, rfl⟩ := serve_cons served
    obtain ⟨rfl, passed⟩ := ends.spec reply next made
    refine ⟨⟨fits, fun silent => ?_⟩, ih (fun other member => admissible other (by simp [member]))
      (passed.backend.trans at_backend) (passed.link.trans over_link) ?_ served_rest⟩
    · rw [passed.store, untouched silent, List.drop_length]
    · rw [passed.store]
      exact later

theorem serve_returns (keeps : link.KeepsObjects backend.bucket holds page before)
    {longest : Nat} (prompt : link.Prompt longest)
    (calls : List Call) (admissible : ∀ call ∈ calls, call.Admissible backend)
    {session : Session (σ × List (Request × Exchange))} (at_backend : session.backend = backend)
    (over_link : session.link = link.recorded) {contents : PlainMap}
    (mirrors : Mirrors backend (holds session.store.1) contents)
    (regular : session.metrics.Regular)
    (room : HasRoom ⟨session.now.nanos + calls.length * patience backend longest⟩) :
    ∃ dealings last, session.serve calls = .ok (dealings, last) := by
  induction calls generalizing session contents with
  | nil => exact ⟨[], session, rfl⟩
  | cons call calls ih =>
    obtain ⟨reply, store, takes, ends, -, later, -, bound⟩ :=
      answers_of_mirrors keeps at_backend over_link mirrors (admissible call (by simp))
    rw [at_backend] at later bound
    have in_time := bound longest (over_link ▸ prompt.recorded)
    have total : (call :: calls).length * patience backend longest =
        calls.length * patience backend longest + patience backend longest := Nat.succ_mul _ _
    have room_now : HasRoom ⟨session.now.nanos + takes⟩ := room.mono (by simp only; omega)
    obtain ⟨next, made, regular_next⟩ := ends.returns regular room_now
    obtain ⟨-, passed⟩ := ends.spec reply next made
    have room_later : HasRoom ⟨next.now.nanos + calls.length * patience backend longest⟩ := by
      rw [passed.now]
      exact room.mono (by simp only; omega)
    obtain ⟨dealings, last, rest⟩ := ih (fun other member => admissible other (by simp [member]))
      (passed.backend.trans at_backend) (passed.link.trans over_link)
      (by rw [passed.store]; exact later) regular_next room_later
    exact ⟨_, last, by simp [serve, made, rest]; rfl⟩

theorem mirrors_of_empty {store : σ}
    (empty : ∀ name : String, backend.keyPrefix.toList <+: name.toList → holds store name = none) :
    Mirrors backend (holds store) fun _ => none :=
  fun key => empty _ (toList_prefix_iff.mpr ⟨key, rfl⟩)

/-- A backend over a store that keeps objects, none of them under the backend's keys at first, is a
map from keys to bytes: whatever is served, the replies are those of the map, and nothing is sent of
an upload that cannot be. And all calls are served while the clock can count as far as they take. -/
theorem serves_plain_map (keeps : link.KeepsObjects backend.bucket holds page before) {store : σ}
    (empty : ∀ name : String, backend.keyPrefix.toList <+: name.toList → holds store name = none)
    {config : StoreConfig} {now : Instant} {session : Session (σ × List (Request × Exchange))}
    (opened : Session.create config backend link.recorded (store, []) now = .ok session)
    {calls : List Call} (admissible : ∀ call ∈ calls, call.Admissible backend) :
    (∀ dealings last, session.serve calls = .ok (dealings, last) →
      Faithful page before backend (fun _ => none) calls dealings) ∧
    ∀ longest, link.Prompt longest →
      HasRoom ⟨now.nanos + calls.length * patience backend longest⟩ →
      ∃ dealings last, session.serve calls = .ok (dealings, last) := by
  obtain ⟨at_backend, over_link, at_store, started, regular⟩ := create_spec opened
  have mirrors : Mirrors backend (holds session.store.1) fun _ => none := by
    rw [at_store]
    exact mirrors_of_empty empty
  refine ⟨fun dealings last served =>
    serve_faithful keeps calls admissible at_backend over_link mirrors served, ?_⟩
  intro longest prompt room
  have room_now : HasRoom now := room.mono (Nat.le_add_right _ _)
  exact serve_returns keeps prompt calls admissible at_backend over_link mirrors
    (regular room_now) (by rw [started]; exact room)

end Serve

section OnShelf

/-- A shelf that lists two keys at a time, and on which everything takes longer than the delay of a
hedge. -/
def slowLink : Link Shelf := Shelf.link 2 fun _ => .ofMillis 100

theorem slowLink_prompt : slowLink.Prompt 100000000 := fun _ _ => Nat.le_refl _

def mixedCalls : List Call :=
  [.upload "a" [1] { compress := true }, .upload "b" (Gzip.gzip [2]) {}, .fetch "a", .fetch "b",
    .list "", .upload "c" [3] { contentType := some "text/plain" }, .list "", .delete "a",
    .fetch "a", .upload "b" [4] { contentType := some "\x7f" }, .fetch "b"]

theorem serves_plain_map_on_shelf :
    ∃ session dealings last,
      Session.create { region := "here", bucket := "objects" } (Shelf.backend "log/" true)
        slowLink.recorded ({}, []) ⟨0⟩ = .ok session ∧
      session.serve mixedCalls = .ok (dealings, last) ∧
      Faithful 2 (· ≤ ·) (Shelf.backend "log/" true) (fun _ => none) mixedCalls dealings := by
  have admissible : ∀ call ∈ mixedCalls, call.Admissible (Shelf.backend "log/" true) := by
    simp [mixedCalls, Call.Admissible, Backend.objectKey, Shelf.backend]
  have room : HasRoom
      ⟨0 + mixedCalls.length * patience (Shelf.backend "log/" true) 100000000⟩ := by
    unfold HasRoom
    decide
  obtain ⟨session, opened⟩ := create_returns (room.mono (Nat.zero_le _))
    { region := "here", bucket := "objects" } (Shelf.backend "log/" true) slowLink.recorded ({}, [])
  obtain ⟨faithful, returns⟩ := serves_plain_map (Shelf.keepsObjects 2 _ _) (fun _ _ => rfl) opened
    admissible
  obtain ⟨dealings, last, served⟩ := returns _ slowLink_prompt room
  exact ⟨session, dealings, last, opened, served, faithful dealings last served⟩

/-- A store that keeps objects does not get what cannot be sent: an upload whose content type has a
control character fails, and the key stays unknown. -/
theorem unspeakable_upload_missing :
    ∃ session last why cause detail gone fetched,
      Session.create { region := "here", bucket := "objects" } (Shelf.backend "log/" true)
        slowLink.recorded ({}, []) ⟨0⟩ = .ok session ∧
      session.serve [.upload "a" [1] { contentType := some "\x7f" }, .fetch "a"] =
        .ok ([⟨.done (.error (.network .upload "a" none why cause)), []⟩,
          ⟨.bytes (.error (.network .fetch "a" (some 404) detail gone)), fetched⟩], last) := by
  let backend := Shelf.backend "log/" true
  let calls : List Call := [.upload "a" [1] { contentType := some "\x7f" }, .fetch "a"]
  have keeps : slowLink.KeepsObjects backend.bucket Shelf.find? 2 (· ≤ ·) := Shelf.keepsObjects _ _ _
  have admissible : ∀ call ∈ calls, call.Admissible backend := by
    simp [calls, Call.Admissible, Backend.objectKey, backend, Shelf.backend]
  have room : HasRoom ⟨0 + calls.length * patience backend 100000000⟩ := by
    unfold HasRoom
    decide
  have room_now : HasRoom ⟨0⟩ := room.mono (Nat.zero_le _)
  obtain ⟨session, opened⟩ := create_returns room_now { region := "here", bucket := "objects" }
    backend slowLink.recorded ({}, [])
  obtain ⟨at_backend, over_link, at_store, started, regular⟩ := create_spec opened
  have mirrors : Mirrors backend (Shelf.find? session.store.1) fun _ => none := by
    rw [at_store]
    exact mirrors_of_empty fun _ _ => rfl
  obtain ⟨dealings, last, served⟩ := serve_returns keeps slowLink_prompt calls admissible at_backend
    over_link mirrors (regular room_now) (by rw [started]; exact room)
  have faithful := serve_faithful keeps calls admissible at_backend over_link mirrors served
  have silent : ({ contentType := some "\x7f" } : UploadOptions).isSpeakable = false := by decide
  obtain _ | ⟨⟨uploaded, sent⟩, _ | ⟨⟨reply, fetched⟩, _ | ⟨third, later⟩⟩⟩ := dealings
  · exact faithful.elim
  · exact faithful.2.elim
  · obtain ⟨refused, missing, -⟩ := faithful
    obtain rfl : sent = [] := refused.unsent silent
    obtain ⟨why, cause, rfl⟩ := refused.reply.unspeakable silent
    obtain ⟨detail, gone, rfl⟩ := missing.reply.missing (by simp [Call.after, silent])
    exact ⟨session, last, why, cause, detail, gone, fetched, opened, served⟩
  · exact faithful.2.2.elim

end OnShelf

end Session

end HedgedStore
