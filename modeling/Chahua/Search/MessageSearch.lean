import Chahua.Framework.Text
import Chahua.Models
import Chahua.Messages.Mentions

namespace Chahua.Search

open Framework

/-- The columns of a message that the search reads. Timestamps count microseconds. -/
structure Message where
  id : Int
  message : Option String
  messageType : MessageType
  replyRootId : Option Int
  chatId : Int
  createdAt : Int
  updatedAt : Option Int
  deletedAt : Option Int
  isPublished : Bool
  deriving DecidableEq, Repr

/-- What the search reads of the response to a send. -/
structure MessageResponse where
  id : Int
  message : Option String
  messageType : MessageType
  replyRootId : Option Int
  chatId : Int
  createdAt : Int
  isDeleted : Bool
  deriving DecidableEq, Repr

structure MessageSearchDocument where
  id : Int
  chatId : Int
  replyRootId : Option Int
  createdAtMillis : Int
  version : Int
  text : String
  deriving DecidableEq, Repr

structure SearchHitCandidate where
  messageId : Int
  version : Int
  deriving DecidableEq, Repr

/-- Characters are appended with each run of whitespace as one space. -/
def appendNormalizedSegment (segment : List Char) (output : List Char × Bool) :
    List Char × Bool :=
  segment.foldl (fun (output, lastWasSpace) ch =>
    if isWhitespace ch then
      if lastWasSpace then (output, lastWasSpace) else (output ++ [' '], true)
    else (output ++ [ch], false)) output

def parseMentionTokenEnd (text : List Char) : Option (List Char) :=
  (Messages.parseMentionToken text).map (·.2)

/-- The scan; `segment` is what was passed since the last token. -/
def normalizeScan : Nat → List Char → List Char → List Char × Bool → List Char × Bool
  | 0, _, segment, output => appendNormalizedSegment segment output
  | _ + 1, [], segment, output => appendNormalizedSegment segment output
  | fuel + 1, c :: text, segment, output =>
      match parseMentionTokenEnd (c :: text) with
      | some next => normalizeScan fuel next [] (appendNormalizedSegment segment output)
      | none => normalizeScan fuel text (segment ++ [c]) output

def normalizeSearchText (input : String) : Option String :=
  let (result, _) := normalizeScan (input.length + 1) input.toList [] ([], true)
  let result := if result.getLast? = some ' ' then result.dropLast else result
  if result = [] then none else some (String.ofList result)

example : normalizeSearchText " @[uid:7] 你好，世界 \n  hello\t@[uid:8] " = some "你好，世界 hello" := by
  decide +kernel

def messageVersion (message : Message) : Int := message.updatedAt.getD message.createdAt

def projectMessageDocument (message : Message) : Option MessageSearchDocument :=
  if message.deletedAt.isSome ∨ ¬message.isPublished ∨ message.messageType ≠ .text then none
  else
    (message.message.bind normalizeSearchText).map fun text =>
      { id := message.id
        chatId := message.chatId
        replyRootId := message.replyRootId
        createdAtMillis := message.createdAt / 1000
        version := messageVersion message
        text := text }

def projectMessageResponseDocument (response : MessageResponse) : Option MessageSearchDocument :=
  if response.isDeleted ∨ response.messageType ≠ .text then none
  else
    (response.message.bind normalizeSearchText).map fun text =>
      { id := response.id
        chatId := response.chatId
        replyRootId := response.replyRootId
        createdAtMillis := response.createdAt / 1000
        version := response.createdAt
        text := text }

/-- The response to the send of a message. -/
def Message.response (message : Message) : MessageResponse where
  id := message.id
  message := if message.deletedAt.isSome then none else message.message
  messageType := message.messageType
  replyRootId := message.replyRootId
  chatId := message.chatId
  createdAt := message.createdAt
  isDeleted := message.deletedAt.isSome

structure SearchCandidateDropCounts where
  missingDbRow : Nat
  wrongChat : Nat
  notSearchable : Nat
  staleVersion : Nat
  deriving DecidableEq, Repr

def SearchCandidateDropCounts.total (drops : SearchCandidateDropCounts) : Nat :=
  drops.missingDbRow + drops.wrongChat + drops.notSearchable + drops.staleVersion

structure AuthoritativeSearchHits where
  messages : List Message
  drops : SearchCandidateDropCounts
  deriving DecidableEq

/-- One candidate of the filter: a row is used up by the first candidate that names it. -/
def filterCandidate (chatId : Int) (candidate : SearchHitCandidate)
    (state : Table Int Message × AuthoritativeSearchHits) :
    Table Int Message × AuthoritativeSearchHits :=
  let (rowsById, hits) := state
  match rowsById.row candidate.messageId with
  | none =>
      (rowsById, { hits with drops.missingDbRow := hits.drops.missingDbRow + 1 })
  | some message =>
      (rowsById.erase candidate.messageId,
        if message.chatId ≠ chatId then
          { hits with drops.wrongChat := hits.drops.wrongChat + 1 }
        else
          match projectMessageDocument message with
          | none => { hits with drops.notSearchable := hits.drops.notSearchable + 1 }
          | some document =>
              if document.version ≠ candidate.version then
                { hits with drops.staleVersion := hits.drops.staleVersion + 1 }
              else { hits with messages := hits.messages ++ [message] })

def filterAuthoritativeHitsWithCounts (chatId : Int) (candidates : List SearchHitCandidate)
    (rows : List Message) : AuthoritativeSearchHits :=
  let rowsById := rows.foldl (fun table message => table.upsert message.id message) Table.empty
  (candidates.foldl (fun state candidate => filterCandidate chatId candidate state)
    (rowsById, ⟨[], ⟨0, 0, 0, 0⟩⟩)).2

/-- A candidate is a hit of a message for a chat. -/
structure Hits (chatId : Int) (candidate : SearchHitCandidate) (message : Message) : Prop where
  id : candidate.messageId = message.id
  chatId : message.chatId = chatId
  version : ∃ document, projectMessageDocument message = some document ∧
    document.version = candidate.version

section Filter

variable {chatId : Int} {candidate : SearchHitCandidate} {rowsById : Table Int Message}
  {hits : AuthoritativeSearchHits}

/-- What one candidate can do: it is counted, or its row is the next hit. -/
theorem filterCandidate_cases (chatId : Int) (candidate : SearchHitCandidate)
    (rowsById : Table Int Message) (hits : AuthoritativeSearchHits) :
    ((filterCandidate chatId candidate (rowsById, hits)).2.messages = hits.messages ∧
      (filterCandidate chatId candidate (rowsById, hits)).2.drops.total = hits.drops.total + 1) ∨
    ∃ message document, rowsById.row candidate.messageId = some message ∧
      message.chatId = chatId ∧ projectMessageDocument message = some document ∧
      document.version = candidate.version ∧
      (filterCandidate chatId candidate (rowsById, hits)).2 =
        { hits with messages := hits.messages ++ [message] } := by
  unfold filterCandidate
  dsimp only
  cases hrow : rowsById.row candidate.messageId with
  | none =>
    refine .inl ⟨rfl, ?_⟩
    simp only [SearchCandidateDropCounts.total]
    omega
  | some message =>
    dsimp only
    split
    · refine .inl ⟨rfl, ?_⟩
      simp only [SearchCandidateDropCounts.total]
      omega
    · next hchat =>
      cases hdocument : projectMessageDocument message with
      | none =>
        refine .inl ⟨rfl, ?_⟩
        simp only [SearchCandidateDropCounts.total]
        omega
      | some document =>
        dsimp only
        split
        · refine .inl ⟨rfl, ?_⟩
          simp only [SearchCandidateDropCounts.total]
          omega
        · next hversion =>
          exact .inr ⟨message, document, rfl, Decidable.not_not.mp hchat, hdocument,
            Decidable.not_not.mp hversion, rfl⟩

theorem filterCandidate_rows (chatId : Int) (candidate : SearchHitCandidate)
    (rowsById : Table Int Message) (hits : AuthoritativeSearchHits) (id : Int) :
    (filterCandidate chatId candidate (rowsById, hits)).1.row id =
      if id = candidate.messageId then none else rowsById.row id := by
  unfold filterCandidate
  dsimp only
  cases hrow : rowsById.row candidate.messageId with
  | none =>
    dsimp only
    split
    · next heq => rw [heq, hrow]
    · rfl
  | some message =>
    dsimp only
    rw [Table.erase_row]

/-- The rows are stored under their ids. -/
def Keyed (rows : Table Int Message) : Prop := ∀ id message, rows.row id = some message →
  message.id = id

theorem Keyed.filterCandidate (h : Keyed rowsById) (chatId : Int) (candidate : SearchHitCandidate)
    (hits : AuthoritativeSearchHits) :
    Keyed (filterCandidate chatId candidate (rowsById, hits)).1 := by
  intro id message hrow
  rw [filterCandidate_rows] at hrow
  split at hrow
  · cases hrow
  · exact h id message hrow

/-- The hits of a fold over candidates: rows of the table, in the order of the candidates, and every
other candidate counted. -/
theorem filter_fold (chatId : Int) {candidates : List SearchHitCandidate}
    {rowsById : Table Int Message} (hkeyed : Keyed rowsById) (hits : AuthoritativeSearchHits) :
    ∃ found, (candidates.foldl (fun state candidate => filterCandidate chatId candidate state)
        (rowsById, hits)).2.messages = hits.messages ++ found ∧
      (found.map Message.id).Sublist (candidates.map SearchHitCandidate.messageId) ∧
      (found.map Message.id).Nodup ∧
      (∀ message ∈ found, rowsById.row message.id = some message ∧
        ∃ candidate ∈ candidates, Hits chatId candidate message) ∧
      found.length + (candidates.foldl
        (fun state candidate => filterCandidate chatId candidate state) (rowsById, hits)).2.drops.total =
        candidates.length + hits.drops.total := by
  induction candidates generalizing rowsById hits with
  | nil => exact ⟨[], by simp, by simp, by simp, by simp, by simp⟩
  | cons candidate candidates ih =>
    have hrows := filterCandidate_rows chatId candidate rowsById hits
    have hnext := hkeyed.filterCandidate chatId candidate hits
    obtain ⟨found, hmessages, hsub, hnodup, hfound, hcount⟩ :=
      ih hnext (filterCandidate chatId candidate (rowsById, hits)).2
    have hrest : ∀ message ∈ found, message.id ≠ candidate.messageId ∧
        rowsById.row message.id = some message ∧
          ∃ other ∈ candidate :: candidates, Hits chatId other message := by
      intro message hmem
      obtain ⟨hrow, other, hother, hhit⟩ := hfound message hmem
      rw [hrows] at hrow
      split at hrow
      · cases hrow
      · next hne => exact ⟨hne, hrow, other, List.mem_cons_of_mem _ hother, hhit⟩
    simp only [Prod.mk.eta] at hmessages hcount
    rw [List.foldl_cons]
    obtain ⟨hsame, hdrops⟩ | ⟨message, document, hrow, hchat, hdocument, hversion, heq⟩ :=
      filterCandidate_cases chatId candidate rowsById hits
    · refine ⟨found, ?_, ?_, hnodup, fun message hmem => (hrest message hmem).2, ?_⟩
      · rw [hmessages, hsame]
      · exact hsub.cons _
      · rw [hcount, hdrops, List.length_cons]
        omega
    · have hid : message.id = candidate.messageId := hkeyed _ _ hrow
      refine ⟨message :: found, ?_, ?_, ?_, ?_, ?_⟩
      · rw [hmessages, heq, List.append_assoc]
        rfl
      · rw [List.map_cons, List.map_cons, hid]
        exact hsub.cons_cons _
      · rw [List.map_cons, List.nodup_cons]
        refine ⟨fun hmem => ?_, hnodup⟩
        obtain ⟨other, hother, heqid⟩ := List.mem_map.mp hmem
        exact (hrest other hother).1 (heqid.trans hid)
      · intro other hmem
        rcases List.mem_cons.mp hmem with rfl | hmem
        · exact ⟨hid ▸ hrow, candidate, List.mem_cons_self, hid.symm, hchat, document, hdocument,
            hversion⟩
        · exact (hrest other hmem).2
      · have hdrops := congrArg (fun hits => hits.drops.total) heq
        dsimp only at hdrops
        rw [List.length_cons, List.length_cons]
        rw [hdrops] at hcount
        omega

/-- A row is still there for the first candidate that names it, and kept if that is a hit. -/
theorem filter_keeps {candidates : List SearchHitCandidate} {rowsById : Table Int Message}
    (hits : AuthoritativeSearchHits) {message : Message}
    (hrow : rowsById.row message.id = some message)
    (hnamed : ∃ candidate ∈ candidates, candidate.messageId = message.id)
    (hhits : ∀ candidate ∈ candidates, candidate.messageId = message.id →
      Hits chatId candidate message) :
    message ∈ (candidates.foldl (fun state candidate => filterCandidate chatId candidate state)
      (rowsById, hits)).2.messages := by
  induction candidates generalizing rowsById hits with
  | nil =>
    obtain ⟨candidate, hmem, -⟩ := hnamed
    cases hmem
  | cons candidate candidates ih =>
    rw [List.foldl_cons]
    by_cases hid : candidate.messageId = message.id
    · obtain ⟨-, hchat, document, hdocument, hversion⟩ :=
        hhits candidate List.mem_cons_self hid
      have hstep : (filterCandidate chatId candidate (rowsById, hits)).2.messages =
          hits.messages ++ [message] := by
        unfold filterCandidate
        dsimp only
        rw [hid, hrow]
        dsimp only
        rw [if_neg (not_not.mpr hchat), hdocument]
        dsimp only
        rw [if_neg (not_not.mpr hversion)]
      have hkept : ∀ (candidates : List SearchHitCandidate)
          (state : Table Int Message × AuthoritativeSearchHits), message ∈ state.2.messages →
          message ∈ (candidates.foldl (fun state candidate => filterCandidate chatId candidate state)
            state).2.messages := by
        intro candidates
        induction candidates with
        | nil => exact fun state hmem => hmem
        | cons other candidates ihrest =>
          intro state hmem
          apply ihrest
          obtain ⟨hsame, -⟩ | ⟨row, -, -, -, -, -, heq⟩ :=
            filterCandidate_cases chatId other state.1 state.2
          · rw [hsame]
            exact hmem
          · rw [heq]
            exact List.mem_append_left _ hmem
      exact hkept _ _ (by rw [hstep]; simp)
    · refine @ih (filterCandidate chatId candidate (rowsById, hits)).1
        (filterCandidate chatId candidate (rowsById, hits)).2 ?_ ?_ ?_
      · rw [filterCandidate_rows, if_neg fun heq => hid heq.symm]
        exact hrow
      · obtain ⟨other, hmem, heq⟩ := hnamed
        rcases List.mem_cons.mp hmem with rfl | hmem
        · exact absurd heq hid
        · exact ⟨other, hmem, heq⟩
      · exact fun other hmem => hhits other (List.mem_cons_of_mem _ hmem)

end Filter

end Chahua.Search
