import HedgedStore.Proofs.Store.Contract
import HedgedStore.Proofs.Store.Markup
import Mathlib.Data.List.AList
import Mathlib.Data.List.Sort
import Mathlib.Data.String.Basic

/-! A store that keeps its objects on a shelf, one for each key, and lists a page of keys at a time.
It is as plain as a store can be that keeps what the contracts promise. -/
namespace HedgedStore

structure Shelf where
  objects : AList fun _ : String => StoredObject := ∅

namespace Shelf

def find? (shelf : Shelf) (key : String) : Option StoredObject := shelf.objects.lookup key

def erase (shelf : Shelf) (key : String) : Shelf := ⟨shelf.objects.erase key⟩

def put (shelf : Shelf) (key : String) (object : StoredObject) : Shelf :=
  ⟨shelf.objects.insert key object⟩

def keys (shelf : Shelf) (start : String) : List String :=
  (shelf.objects.keys.filter fun key => start.toList.isPrefixOf key.toList).mergeSort

/-- What the shelf answers, and what is on it afterwards. Copying is not offered. -/
def answer (page : Nat) (shelf : Shelf) (request : Request) : Answer × Shelf :=
  match request.method, request.key with
  | .put, some key =>
    if request.header? "x-amz-copy-source" ≠ none then ({ status := 501 }, shelf)
    else if request.header? "if-match" = some "" ∧ shelf.find? key ≠ none then
      ({ status := 412 }, shelf)
    else ({ status := 200 }, shelf.put key request.object)
  | .get, some key =>
    match shelf.find? key with
    | some object =>
      ({ status := 200
         headers := object.encoding.toList.map fun encoding => ("content-encoding", encoding)
         body := object.body }, shelf)
    | none => ({ status := 404 }, shelf)
  | .delete, some key => ({ status := 204 }, shelf.erase key)
  | .get, none =>
    let keys := shelf.keys ((request.query.lookup "prefix").getD "")
    let text := Listing.written (keys.take page) (decide (page < keys.length))
    ({ status := 200, body := text.toUTF8.data.toList }, shelf)
  | _, none => ({ status := 405 }, shelf)

/-- The way to the shelf; an exchange takes as long as `takes` says. -/
def link (page : Nat) (takes : Request → Duration) : Link Shelf :=
  ⟨fun shelf request =>
    let (answer, shelf) := shelf.answer page request
    (⟨some answer, takes request⟩, shelf)⟩

def backend (keyPrefix : String) (conditionalWrites : Bool) : Backend where
  bucket := "objects"
  keyPrefix := keyPrefix
  endpoint := none
  conditionalWrites := conditionalWrites
  hedgeDelay := Hedge.defaultDelay
  maxAttempts := 3

theorem find_erase (shelf : Shelf) (key : String) :
    (shelf.erase key).find? = Function.update shelf.find? key none := by
  funext other
  by_cases same : other = key
  · subst same
    simp [erase, find?]
  · simp [erase, find?, same]

theorem find_put (shelf : Shelf) (key : String) (object : StoredObject) :
    (shelf.put key object).find? = Function.update shelf.find? key (some object) := by
  funext other
  by_cases same : other = key
  · subst same
    simp [put, find?]
  · simp [put, find?, same]

theorem exchange_succeeds {page : Nat} (takes : Request → Duration) {shelf next : Shelf}
    {request : Request} {answer : Answer} (h : shelf.answer page request = (answer, next))
    (success : answer.isSuccess = true) (whole : answer.complete = true) :
    ((link page takes).exchange shelf request).1.Succeeds answer ∧
      ((link page takes).exchange shelf request).2 = next := by
  have exchanged : (link page takes).exchange shelf request =
      (⟨some answer, takes request⟩, next) := by
    simp only [link, h]
  rw [exchanged]
  exact ⟨⟨rfl, success, whole⟩, rfl⟩

theorem overwrites (page : Nat) (takes : Request → Duration) (bucket : String) :
    (link page takes).Overwrites bucket find? := by
  rintro shelf request key ⟨⟨method, -, named⟩, uncopied⟩ free
  have h : shelf.answer page request = ({ status := 200 }, shelf.put key request.object) := by
    simp [answer, method, named, uncopied, free]
  obtain ⟨succeeds, kept⟩ := exchange_succeeds takes h rfl rfl
  exact ⟨⟨_, succeeds⟩, by rw [kept, find_put]⟩

theorem createsOnly (page : Nat) (takes : Request → Duration) (bucket : String) :
    (link page takes).CreatesOnly bucket find? where
  creates := by
    rintro shelf request key ⟨⟨method, -, named⟩, uncopied⟩ conditional absent
    have h : shelf.answer page request = ({ status := 200 }, shelf.put key request.object) := by
      simp [answer, method, named, uncopied, absent]
    obtain ⟨succeeds, kept⟩ := exchange_succeeds takes h rfl rfl
    exact ⟨⟨_, succeeds⟩, by rw [kept, find_put]⟩
  refuses := by
    rintro shelf request key ⟨⟨method, -, named⟩, uncopied⟩ conditional present
    have h : shelf.answer page request = ({ status := 412 }, shelf) := by
      simp [answer, method, named, uncopied, conditional, present]
    refine ⟨⟨{ status := 412 }, by simp [link, h], rfl, rfl, ?_⟩, by simp [link, h]⟩
    exact Answer.isPassing_of_empty rfl

theorem catalogue_keys (shelf : Shelf) (start : String) :
    Catalogue shelf.find? (· ≤ ·) start (shelf.keys start) where
  nodup := (List.mergeSort_perm _ _).nodup_iff.mpr (shelf.objects.keys_nodup.filter _)
  ordered := List.pairwise_mergeSort' _ _
  mem_iff name := by
    have there : shelf.find? name ≠ none ↔ name ∈ shelf.objects.keys := by
      rw [find?, ne_eq, AList.lookup_eq_none, not_not, AList.mem_keys]
    rw [there, keys, List.mem_mergeSort, List.mem_filter, List.isPrefixOf_iff_prefix, and_comm]

/-- The shelf keeps objects, and lists them in the order of their names. -/
theorem keepsObjects (page : Nat) (takes : Request → Duration) (bucket : String) :
    (link page takes).KeepsObjects bucket find? page (· ≤ ·) where
  overwrites := overwrites page takes bucket
  reads := by
    rintro shelf request key object ⟨method, -, named⟩ found
    let headers := object.encoding.toList.map fun encoding => ("content-encoding", encoding)
    have h : shelf.answer page request =
        ({ status := 200, headers, body := object.body }, shelf) := by
      simp [answer, method, named, found, headers]
    obtain ⟨succeeds, kept⟩ := exchange_succeeds takes h (by simp [Answer.isSuccess]) rfl
    refine ⟨⟨_, succeeds, rfl, ?_⟩, by rw [kept]⟩
    cases encoded : object.encoding with
    | none => simp [Answer.header?, headers, encoded]
    | some encoding =>
      have lower : "content-encoding".toLower = "content-encoding" := by
        refine String.toList_inj.mp (String.toList_map.trans ?_)
        decide
      simp [Answer.header?, headers, encoded, lower]
  misses := by
    rintro shelf request key ⟨method, -, named⟩ absent
    have h : shelf.answer page request = ({ status := 404 }, shelf) := by
      simp [answer, method, named, absent]
    exact ⟨⟨{ status := 404 }, by simp [link, h], rfl⟩, by simp [link, h]⟩
  deletes := by
    rintro shelf request key ⟨method, -, named⟩
    have h : shelf.answer page request = ({ status := 204 }, shelf.erase key) := by
      simp [answer, method, named]
    obtain ⟨succeeds, kept⟩ := exchange_succeeds takes h rfl rfl
    exact ⟨⟨_, succeeds⟩, by rw [kept, find_erase]⟩
  lists := by
    rintro shelf request start ⟨method, -, named⟩ asked
    let keys := shelf.keys start
    let text := Listing.written (keys.take page) (decide (page < keys.length))
    have h : shelf.answer page request =
        ({ status := 200, body := text.toUTF8.data.toList }, shelf) := by
      simp [answer, method, named, asked, text, keys]
    obtain ⟨succeeds, kept⟩ := exchange_succeeds takes h (by simp [Answer.isSuccess]) rfl
    refine ⟨⟨_, _, keys, succeeds, Answer.listing?_written rfl, ⟨rfl, by simp⟩, ?_⟩, by rw [kept]⟩
    exact catalogue_keys shelf start

/-- A listing shows nothing but the objects that it is about. -/
theorem keys_congr {shelf other : Shelf} {start : String}
    (same : ∀ key, start.toList <+: key.toList → shelf.find? key = other.find? key) :
    shelf.keys start = other.keys start := by
  have first := shelf.catalogue_keys start
  have second := other.catalogue_keys start
  have perm : (shelf.keys start).Perm (other.keys start) := by
    refine (List.perm_ext_iff_of_nodup first.nodup second.nodup).mpr fun key => ?_
    rw [first.mem_iff, second.mem_iff]
    exact and_congr_right fun begins => by rw [same key begins]
  exact perm.eq_of_pairwise (fun _ _ _ _ => le_antisymm) first.ordered second.ordered

theorem keepsApart (page : Nat) (takes : Request → Duration) (bucket : String) :
    (link page takes).KeepsApart bucket find? where
  answers := by
    rintro request key ⟨-, named, uncopied⟩ shelf other same
    cases method : request.method with
    | put =>
      by_cases refused : request.header? "if-match" = some "" ∧ other.find? key ≠ none
      · simp [link, answer, method, named, uncopied, same, refused]
      · simp only [link, answer, method, named, uncopied, same, if_neg refused]
        simp [find_put]
    | get =>
      cases found : other.find? key <;>
        simp [link, answer, method, named, same, found]
    | delete => simp [link, answer, method, named, find_erase]
  spares := by
    rintro request key ⟨-, named, uncopied⟩ shelf spared apart
    cases method : request.method with
    | put =>
      by_cases refused : request.header? "if-match" = some "" ∧ shelf.find? key ≠ none
      · simp [link, answer, method, named, uncopied, refused]
      · simp only [link, answer, method, named, uncopied, if_neg refused]
        simp [find_put, apart]
    | get =>
      cases found : shelf.find? key <;>
        simp [link, answer, method, named, found]
    | delete => simp [link, answer, method, named, find_erase, apart]
  lists := by
    rintro request start ⟨⟨method, -, named⟩, asked⟩ shelf other same
    simp [link, answer, method, named, asked, keys_congr same]
  keeps := by
    rintro request start ⟨⟨method, -, named⟩, asked⟩ shelf
    simp [link, answer, method, named]

end Shelf

end HedgedStore
