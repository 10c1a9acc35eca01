import GpuInference.DelimitedText
import GpuInference.RequestLifecycle
import Mathlib.Logic.Relation

/-!
What the hash of a prompt depends on. The role and the content of every message are followed by a NUL byte, which a
content may have as well: two neighbouring messages are hashed as one whose content has a NUL on either side of the
second role. Prompts are hashed alike exactly when one comes from the other by such regroupings.
-/

open Delimited

namespace GpuInference

/-- The bytes that `hash_prompt` feeds to SHA-256. -/
def promptBytes (messages : List ChatMessage) : List UInt8 :=
  messages.flatMap fun message => message.role.name.toUTF8.toList ++ [0] ++ message.content.toUTF8.toList ++ [0]

theorem hashPrompt_eq (sha256 : Sha256) {messages : List ChatMessage} (h : messages ≠ []) :
    hashPrompt sha256 messages = some (sha256 (promptBytes messages)) := if_neg h

/-- The roles and the contents. -/
def promptFields (messages : List ChatMessage) : List (List Char) :=
  messages.flatMap fun message => [message.role.name.toList, message.content.toList]

/-- The same, with a NUL behind each of them. -/
def promptText (messages : List ChatMessage) : List Char := Delimited.join '\x00' (promptFields messages)

theorem promptText_cons (message : ChatMessage) (messages : List ChatMessage) :
    promptText (message :: messages) =
      message.role.name.toList ++ '\x00' :: (message.content.toList ++ '\x00' :: promptText messages) := by
  rw [promptText, promptFields, List.flatMap_cons, join_append, join_cons, join_cons, join_nil]
  simp [promptText, promptFields]

theorem promptText_append (left right : List ChatMessage) :
    promptText (left ++ right) = promptText left ++ promptText right := by
  rw [promptText, promptFields, List.flatMap_append, join_append]
  rfl

theorem nul_utf8 : (String.ofList ['\x00']).toUTF8.toList = [0] := by
  rw [toList_eq]
  rfl

theorem promptBytes_eq_utf8 (messages : List ChatMessage) :
    promptBytes messages = (String.ofList (promptText messages)).toUTF8.toList := by
  induction messages with
  | nil =>
      rw [toList_eq]
      rfl
  | cons message messages ih =>
      have hsplit : String.ofList (promptText (message :: messages)) =
          message.role.name ++ String.ofList ['\x00'] ++ message.content ++ String.ofList ['\x00'] ++
            String.ofList (promptText messages) := by
        rw [← String.toList_inj, promptText_cons]
        simp
      have hcons : promptBytes (message :: messages) = message.role.name.toUTF8.toList ++ [0] ++
          message.content.toUTF8.toList ++ [0] ++ promptBytes messages := List.flatMap_cons
      rw [hcons, ih, hsplit, toUTF8_append, toUTF8_append, toUTF8_append, toUTF8_append, nul_utf8]

/-- The bytes tell as much as the text. -/
theorem promptBytes_eq_iff {messages messages' : List ChatMessage} :
    promptBytes messages = promptBytes messages' ↔ promptText messages = promptText messages' := by
  rw [promptBytes_eq_utf8, promptBytes_eq_utf8, toUTF8_inj, String.ofList_inj]

/-- Two messages as one. -/
def ChatMessage.join (first second : ChatMessage) : ChatMessage where
  role := first.role
  content := first.content ++ "\x00" ++ second.role.name ++ "\x00" ++ second.content

/-- Two neighbouring messages are joined. -/
inductive Joins : List ChatMessage → List ChatMessage → Prop
  | intro (front : List ChatMessage) (first second : ChatMessage) (back : List ChatMessage) :
      Joins (front ++ first :: second :: back) (front ++ first.join second :: back)

/-- The messages come from each other by joining neighbours and by splitting messages again. -/
def Regrouped : List ChatMessage → List ChatMessage → Prop := Relation.EqvGen Joins

/-- A join keeps the text. -/
theorem Joins.promptText_eq {messages messages' : List ChatMessage} (h : Joins messages messages') :
    promptText messages = promptText messages' := by
  obtain ⟨front, first, second, back⟩ := h
  rw [promptText_append, promptText_append, promptText_cons, promptText_cons, promptText_cons]
  simp [ChatMessage.join]

theorem Joins.ne {messages messages' : List ChatMessage} (h : Joins messages messages') : messages ≠ messages' := by
  obtain ⟨front, first, second, back⟩ := h
  intro hsame
  have hlength := congrArg List.length hsame
  simp at hlength

/-- All the messages as one. -/
def merged (first : ChatMessage) : List ChatMessage → ChatMessage
  | [] => first
  | second :: back => merged (first.join second) back

theorem regrouped_merged (first : ChatMessage) (back : List ChatMessage) :
    Regrouped (first :: back) [merged first back] := by
  induction back generalizing first with
  | nil => exact .refl _
  | cons second back ih => exact .trans _ _ _ (.rel _ _ (.intro [] first second back)) (ih (first.join second))

theorem nul_not_mem_name (role : Role) : '\x00' ∉ role.name.toList := by
  cases role <;> decide

theorem name_inj {role role' : Role} (h : role.name = role'.name) : role = role' := by
  cases role <;> cases role' <;> first | rfl | exact absurd h (by decide)

/-- A single message can be told from its text. -/
theorem promptText_singleton_inj {message message' : ChatMessage} (h : promptText [message] = promptText [message']) :
    message = message' := by
  rw [promptText_cons, promptText_cons,
    append_sep_inj (nul_not_mem_name message.role) (nul_not_mem_name message'.role)] at h
  have hrole : message.role = message'.role := name_inj (String.toList_inj.mp h.1)
  have hcontent : message.content = message'.content := String.toList_inj.mp (List.append_cancel_right h.2)
  cases message
  cases message'
  cases hrole
  cases hcontent
  rfl

theorem Regrouped.promptText_eq {messages messages' : List ChatMessage} (h : Regrouped messages messages') :
    promptText messages = promptText messages' := by
  induction h with
  | rel _ _ hjoins => exact hjoins.promptText_eq
  | refl _ => rfl
  | symm _ _ _ ih => exact ih.symm
  | trans _ _ _ _ _ ihleft ihright => exact ihleft.trans ihright

/-- **Prompts are hashed from the same bytes** exactly when they are regroupings of each other. -/
theorem promptBytes_eq_iff_regrouped {messages messages' : List ChatMessage} (h : messages ≠ []) (h' : messages' ≠ []) :
    promptBytes messages = promptBytes messages' ↔ Regrouped messages messages' := by
  rw [promptBytes_eq_iff]
  constructor
  · intro htext
    obtain ⟨first, back, rfl⟩ := List.exists_cons_of_ne_nil h
    obtain ⟨first', back', rfl⟩ := List.exists_cons_of_ne_nil h'
    have hmerged := regrouped_merged first back
    have hmerged' := regrouped_merged first' back'
    have hsame : merged first back = merged first' back' := by
      apply promptText_singleton_inj
      rw [← hmerged.promptText_eq, ← hmerged'.promptText_eq, htext]
    rw [hsame] at hmerged
    exact .trans _ _ _ hmerged (.symm _ _ hmerged')
  · exact Regrouped.promptText_eq

/-- **Two prompts are hashed from different bytes**, if they differ, exactly when none is a regrouping of the other. -/
theorem prompts_separated_iff {messages messages' : List ChatMessage} (h : messages ≠ []) (h' : messages' ≠ []) :
    (messages ≠ messages' → promptBytes messages ≠ promptBytes messages') ↔
      (Regrouped messages messages' → messages = messages') := by
  rw [← promptBytes_eq_iff_regrouped h h']
  exact not_imp_not

/-- A system message in front, and none. -/
theorem prompts_separated_system :
    ([⟨.system, "be brief"⟩, ⟨.user, "hello"⟩] ≠ [(⟨.user, "hello"⟩ : ChatMessage)] →
      promptBytes [⟨.system, "be brief"⟩, ⟨.user, "hello"⟩] ≠ promptBytes [⟨.user, "hello"⟩]) ↔
    (Regrouped [⟨.system, "be brief"⟩, ⟨.user, "hello"⟩] [⟨.user, "hello"⟩] →
      [⟨.system, "be brief"⟩, ⟨.user, "hello"⟩] = [(⟨.user, "hello"⟩ : ChatMessage)]) :=
  prompts_separated_iff (List.cons_ne_nil _ _) (List.cons_ne_nil _ _)

/-- Two questions, and one that is made of them. -/
theorem prompts_not_separated :
    ¬ ([⟨.user, "a"⟩, ⟨.user, "b"⟩] ≠ [(⟨.user, "a\x00user\x00b"⟩ : ChatMessage)] →
      promptBytes [⟨.user, "a"⟩, ⟨.user, "b"⟩] ≠ promptBytes [⟨.user, "a\x00user\x00b"⟩]) := by
  intro hseparated
  apply hseparated (by decide)
  exact promptBytes_eq_iff.mpr (Joins.intro [] ⟨.user, "a"⟩ ⟨.user, "b"⟩ []).promptText_eq

/-- Every prompt of two messages or more has another one with the same hash. -/
theorem exists_same_hash (first second : ChatMessage) (back : List ChatMessage) :
    ∃ messages, messages ≠ first :: second :: back ∧
      ∀ sha256 : Sha256, hashPrompt sha256 messages = hashPrompt sha256 (first :: second :: back) := by
  have hjoins : Joins (first :: second :: back) (first.join second :: back) := .intro [] first second back
  refine ⟨first.join second :: back, hjoins.ne.symm, ?_⟩
  intro sha256
  rw [hashPrompt_eq sha256 (List.cons_ne_nil _ _), hashPrompt_eq sha256 (List.cons_ne_nil _ _),
    promptBytes_eq_iff.mpr hjoins.promptText_eq]

/-- The name of a role is in a content, between two NULs. -/
def NamesRole (content : String) : Prop :=
  ∃ (left : String) (role : Role) (right : String), content = left ++ "\x00" ++ role.name ++ "\x00" ++ right

theorem merged_content (first : ChatMessage) (back : List ChatMessage) :
    ∃ rest, (merged first back).content = first.content ++ rest := by
  induction back generalizing first with
  | nil => exact ⟨"", String.append_empty.symm⟩
  | cons second back ih =>
      obtain ⟨rest, hrest⟩ := ih (first.join second)
      refine ⟨"\x00" ++ second.role.name ++ "\x00" ++ second.content ++ rest, ?_⟩
      rw [merged, hrest]
      simp [ChatMessage.join, String.append_assoc]

/-- **A prompt has bytes of its own** exactly when it is a single message that names no role between two NULs. -/
theorem bytes_of_its_own_iff {messages : List ChatMessage} (h : messages ≠ []) :
    (∀ messages', messages' ≠ [] → promptBytes messages' = promptBytes messages → messages' = messages) ↔
      ∃ message, messages = [message] ∧ ¬ NamesRole message.content := by
  constructor
  · intro hown
    obtain ⟨first, back, rfl⟩ := List.exists_cons_of_ne_nil h
    cases back with
    | nil =>
        refine ⟨first, rfl, ?_⟩
        rintro ⟨left, role, right, hcontent⟩
        have hjoins : Joins [⟨first.role, left⟩, ⟨role, right⟩] [first] := by
          have hjoin : first = ChatMessage.join ⟨first.role, left⟩ ⟨role, right⟩ := by
            cases first
            cases hcontent
            rfl
          rw [hjoin]
          exact .intro [] ⟨first.role, left⟩ ⟨role, right⟩ []
        exact hjoins.ne (hown _ (List.cons_ne_nil _ _) (promptBytes_eq_iff.mpr hjoins.promptText_eq))
    | cons second back =>
        have hjoins : Joins (first :: second :: back) (first.join second :: back) := .intro [] first second back
        have hsame := hown _ (List.cons_ne_nil _ _) (promptBytes_eq_iff.mpr hjoins.promptText_eq.symm)
        exact absurd hsame.symm hjoins.ne
  · rintro ⟨message, rfl, hnames⟩ messages' hne hbytes
    obtain ⟨first, back, rfl⟩ := List.exists_cons_of_ne_nil hne
    have hmerged : merged first back = message := by
      apply promptText_singleton_inj
      rw [← (regrouped_merged first back).promptText_eq, promptBytes_eq_iff.mp hbytes]
    cases back with
    | nil => rw [← hmerged, merged]
    | cons second back =>
        rw [merged] at hmerged
        obtain ⟨rest, hrest⟩ := merged_content (first.join second) back
        rw [hmerged] at hrest
        refine absurd ⟨first.content, second.role, second.content ++ rest, ?_⟩ hnames
        simpa [ChatMessage.join, String.append_assoc] using hrest

theorem promptFields_inj {messages messages' : List ChatMessage} (h : promptFields messages = promptFields messages') :
    messages = messages' := by
  induction messages generalizing messages' with
  | nil =>
      cases messages' with
      | nil => rfl
      | cons message' messages' => simp [promptFields] at h
  | cons message messages ih =>
      cases messages' with
      | nil => simp [promptFields] at h
      | cons message' messages' =>
          obtain ⟨role, content⟩ := message
          obtain ⟨role', content'⟩ := message'
          simp only [promptFields, List.flatMap_cons, List.cons_append, List.nil_append, List.cons.injEq,
            String.toList_inj] at h
          obtain ⟨hrole, rfl, hrest⟩ := h
          rw [name_inj hrole, ih hrest]

theorem nul_not_mem_fields {messages : List ChatMessage}
    (h : ∀ message ∈ messages, '\x00' ∉ message.content.toList) : ∀ field ∈ promptFields messages, '\x00' ∉ field := by
  intro field hfield
  obtain ⟨message, hmessage, hfield⟩ := List.mem_flatMap.mp hfield
  rcases List.mem_pair.mp hfield with rfl | rfl
  · exact nul_not_mem_name message.role
  · exact h message hmessage

/-- **Prompts without a NUL are told apart by their hashes**, as far as SHA-256 tells their bytes apart. -/
theorem eq_of_hashPrompt {sha256 : Sha256} {messages messages' : List ChatMessage} (hne : messages ≠ [])
    (hne' : messages' ≠ []) (h : ∀ message ∈ messages, '\x00' ∉ message.content.toList)
    (h' : ∀ message ∈ messages', '\x00' ∉ message.content.toList)
    (hhash : hashPrompt sha256 messages = hashPrompt sha256 messages') :
    messages = messages' ∨
      promptBytes messages ≠ promptBytes messages' ∧ sha256 (promptBytes messages) = sha256 (promptBytes messages') := by
  rw [hashPrompt_eq sha256 hne, hashPrompt_eq sha256 hne'] at hhash
  by_cases hbytes : promptBytes messages = promptBytes messages'
  · left
    rw [promptBytes_eq_iff, promptText, promptText, join_inj (nul_not_mem_fields h) (nul_not_mem_fields h')] at hbytes
    exact promptFields_inj hbytes
  · exact .inr ⟨hbytes, Option.some.inj hhash⟩

end GpuInference
