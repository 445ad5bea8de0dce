import HedgedStore.Backend.Failure
import HedgedStore.Proofs.Text.Quoted
import Mathlib.Data.List.TakeWhile

/-! What a failure is about can be told from its message alone: the word for what was being done
stands in front of the first blank behind the opening, and the key ends with its own quotes,
whatever the details behind it look like. -/
namespace HedgedStore.Failure

/-- The word for what was being done, and the key as the caller gave it. -/
def subject? : Failure → Option (String × String)
  | .configuration _ => none
  | .compress key _ => some ("compress", key)
  | .network operation key _ _ _ | .protocol operation key _ => some (operation.verb, key)
  | .decode key _ => some ("decompress", key)
  | .read key _ => some ("read", key)

/-- The words for what can be done. -/
def words : List String :=
  ["upload", "fetch", "list", "copy", "delete", "compress", "decompress", "read"]

variable {failure other : Failure} {word key : String}

theorem word_mem_words (about : failure.subject? = some (word, key)) : word ∈ words := by
  have verbs : ∀ operation : Operation, operation.verb ∈ words := by
    intro operation
    cases operation <;> decide
  cases failure with
  | configuration _ => cases about
  | compress _ _ | decode _ _ | read _ _ =>
    cases about
    decide
  | network operation _ _ _ _ | protocol operation _ _ =>
    cases about
    exact verbs operation

/-- What is said of a key reads alike, whatever the word and the place. -/
theorem toList_said (word place key detail : String) :
    ("failed to " ++ word ++ " " ++ Text.quote key ++ place ++ detail).toList =
      "failed to ".toList ++
        (word.toList ++ ' ' :: ((Text.quote key).toList ++ (place ++ detail).toList)) := by
  simp

theorem message_of_subject (about : failure.subject? = some (word, key)) :
    ∃ rest, failure.message.toList =
      "failed to ".toList ++ (word.toList ++ ' ' :: ((Text.quote key).toList ++ rest)) := by
  cases failure with
  | configuration _ => cases about
  | compress _ cause =>
    cases about
    exact ⟨_, toList_said "compress" ": " key cause⟩
  | network operation _ _ detail _ =>
    cases about
    exact ⟨_, toList_said operation.verb " on S3: " key detail⟩
  | decode _ cause =>
    cases about
    exact ⟨_, toList_said "decompress" " from S3: " key cause⟩
  | read _ cause =>
    cases about
    exact ⟨_, toList_said "read" " from S3: " key cause⟩
  | protocol operation _ reason =>
    cases about
    exact ⟨_, toList_said operation.verb " from S3: " key reason⟩

theorem message_of_no_subject (about : failure.subject? = none) :
    ∃ rest, failure.message.toList = 'C' :: rest := by
  cases failure with
  | configuration reason =>
    exact ⟨_, String.toList_append (s := "Configuration error: ") (t := reason)⟩
  | _ => cases about

/-- A word without blanks ends at the first blank. -/
theorem word_append_inj {word word' rest rest' : List Char} (whole : ' ' ∉ word)
    (whole' : ' ' ∉ word') (same : word ++ ' ' :: rest = word' ++ ' ' :: rest') :
    word = word' ∧ rest = rest' := by
  have stays {cs : List Char} (whole : ' ' ∉ cs) : ∀ c ∈ cs, (c != ' ') = true := by
    intro c member
    rw [bne_iff_ne]
    rintro rfl
    exact whole member
  have read := congrArg (List.takeWhile (· != ' ')) same
  rw [List.takeWhile_append_of_pos (stays whole), List.takeWhile_append_of_pos (stays whole')] at read
  obtain rfl : word = word' := by simpa using read
  exact ⟨rfl, by simpa using same⟩

theorem not_blank_of_mem_words (member : word ∈ words) : ' ' ∉ word.toList := by
  revert word
  decide

theorem subject_eq_of_message {word' key' : String} (about : failure.subject? = some (word, key))
    (about' : other.subject? = some (word', key')) (same : other.message = failure.message) :
    word' = word ∧ key' = key := by
  obtain ⟨rest, reads⟩ := message_of_subject about
  obtain ⟨rest', reads'⟩ := message_of_subject about'
  have texts := reads'.symm.trans ((congrArg String.toList same).trans reads)
  obtain ⟨words_eq, behind⟩ := word_append_inj (not_blank_of_mem_words (word_mem_words about'))
    (not_blank_of_mem_words (word_mem_words about)) (List.append_cancel_left texts)
  exact ⟨String.toList_inj.mp words_eq, (Text.quote_append_inj behind).1⟩

theorem message_ne_of_subject (about : failure.subject? = some (word, key))
    (silent : other.subject? = none) : other.message ≠ failure.message := by
  obtain ⟨rest, reads⟩ := message_of_subject about
  obtain ⟨rest', reads'⟩ := message_of_no_subject silent
  intro same
  have texts := reads'.symm.trans ((congrArg String.toList same).trans reads)
  simp at texts

/-- The message says what was being done and to which key: the key stands between quotes, without a
control character and without a quote that is not escaped, and failures of other words or keys and
failures of the configuration read otherwise. -/
theorem message_tells_subject (failure : Failure) :
    (∀ word key, failure.subject? = some (word, key) → word ∈ words ∧ ∃ inside rest,
      (Text.quote key).toList = '"' :: (inside ++ ['"']) ∧
      failure.message.toList =
        "failed to ".toList ++ (word.toList ++ ' ' :: '"' :: (inside ++ '"' :: rest)) ∧
      Text.Enclosed inside ∧ ∀ c ∈ inside, ¬ Text.IsControl c) ∧
    ∀ other : Failure, other.message = failure.message → other.subject? = failure.subject? := by
  constructor
  · intro word key about
    obtain ⟨rest, reads⟩ := message_of_subject about
    refine ⟨word_mem_words about, key.toList.flatMap Text.escape, rest, Text.toList_quote key, ?_,
      Text.enclosed_flatMap_escape _, ?_⟩
    · rw [reads, Text.toList_quote]
      simp
    · intro c member
      obtain ⟨d, -, written⟩ := List.mem_flatMap.mp member
      exact Text.not_isControl_of_mem_escape written
  · intro other same
    cases about : failure.subject? with
    | none =>
      cases about' : other.subject? with
      | none => rfl
      | some subject => exact absurd same.symm (message_ne_of_subject about' about)
    | some subject =>
      cases about' : other.subject? with
      | none => exact absurd same (message_ne_of_subject about about')
      | some subject' =>
        obtain ⟨words_eq, keys_eq⟩ := subject_eq_of_message about about' same
        rw [Prod.ext words_eq keys_eq]

/-- The details may look like a key and an operation of their own. -/
example : (network .upload "a\"" none " from S3: \"b\"" "").message =
    "failed to upload \"a\\\"\" on S3:  from S3: \"b\"" := by decide

end HedgedStore.Failure
