import AgentRuntime.Library.Sessions
import AgentRuntime.Chunking
import AgentRuntime.Returning
import AgentRuntime.Retrying

/-! Ingestion of a document: its chunks, their embeddings, and the one transaction that stores both.
The provider of the embeddings and the constraints of the tables are parameters. -/
namespace AgentRuntime
open Sessions Tables

/-- `KnowledgeBaseCreate`, whose fields have passed their bounds. -/
structure KnowledgeBaseCreate where
  name : String
  description : String := ""
  embeddingModel : String := "text-embedding-3-small"
  chunkSize : Int := 512
  chunkOverlap : Int := 64
  sizeBounds : 64 ≤ chunkSize ∧ chunkSize ≤ 8192
  overlapBounds : 0 ≤ chunkOverlap ∧ chunkOverlap ≤ 2048

/-- `KnowledgeBaseModel`. -/
structure KnowledgeBaseRow where
  id : String
  name : String
  description : String
  embeddingModel : String
  chunkSize : Int
  chunkOverlap : Int

instance : Keyed KnowledgeBaseRow String := ⟨KnowledgeBaseRow.id⟩

/-- `DocumentModel`. -/
structure DocumentRow where
  id : String
  knowledgeBaseId : String
  filename : String
  contentType : String
  status : String
  chunkCount : Nat

/-- `KnowledgeChunkModel`. -/
structure ChunkRow where
  id : String
  documentId : String
  knowledgeBaseId : String
  content : String
  embedding : Json
  metadata : Dict

inductive KnowledgeRow where
  | document (row : DocumentRow)
  | chunk (row : ChunkRow)

structure Knowledge where
  bases : Table KnowledgeBaseRow
  documents : List DocumentRow
  chunks : List ChunkRow

inductive IngestError where
  | valueError (message : String)
  | runtimeError (message : String)
  | gateway (error : ExecError)
  | database (message : String)

/-- The check of `create_knowledge_base`, and the row it stores. -/
def createKnowledgeBase (newId : String) (request : KnowledgeBaseCreate) :
    Except String KnowledgeBaseRow :=
  if request.chunkOverlap ≥ request.chunkSize then
    .error "chunk_overlap must be smaller than chunk_size"
  else .ok ⟨newId, request.name, request.description, request.embeddingModel, request.chunkSize,
    request.chunkOverlap⟩

/-- `EmbeddingRequest`. -/
structure EmbeddingRequest where
  model : String
  inputs : List String
  dimensions : Option Nat := none

/-- A row of the provider's reply. -/
structure EmbeddingRow where
  index : Int
  embedding : List Json

structure EmbeddingGateway where
  defaultModel : String
  /-- The reply of the provider, or the exception of the call. -/
  aembedding : EmbeddingRequest → Except ModelException (List EmbeddingRow)

namespace EmbeddingGateway
variable (py : Builtins) (gateway : EmbeddingGateway)

def resolved (request : EmbeddingRequest) : EmbeddingRequest :=
  { request with model := textOr (some request.model) gateway.defaultModel }

def embed (request : EmbeddingRequest) : Except ExecError EmbeddingResult :=
  match gateway.aembedding (gateway.resolved request) with
  | .ok rows =>
      let rows := rows.insertionSort fun a b => a.index ≤ b.index
      .ok { embeddings := rows.map fun row => .arr row.embedding }
  | .error exc => do
      let error ← normalizeModelError py exc
      return { error := some error }

def computeEmbeddings (texts : List String) (model : String) (dimensions : Nat) :
    Except IngestError (List Json) :=
  if texts.isEmpty then .ok []
  else do
    let request : EmbeddingRequest := { model, inputs := texts, dimensions := some dimensions }
    let result ← (gateway.embed py request).mapError IngestError.gateway
    match result.error with
    | some error => .error (.runtimeError error.message)
    | none =>
        if result.embeddings.length ≠ texts.length then
          .error (.runtimeError "embedding provider returned an unexpected row count")
        else .ok result.embeddings

end EmbeddingGateway

/-- The arguments of `ingest_document`. -/
structure IngestRequest where
  knowledgeBaseId : String
  filename : String
  content : String
  contentType : String := "text/plain"
  metadata : Option Dict := none

/-- What the tables reject a row for, and the new identities. -/
structure KnowledgeTables where
  rejects : Knowledge → KnowledgeRow → Option String
  newId : Nat → String

namespace KnowledgeTables
variable (tables : KnowledgeTables)

def append (knowledge : Knowledge) : KnowledgeRow → Knowledge
  | .document row => { knowledge with documents := knowledge.documents ++ [row] }
  | .chunk row => { knowledge with chunks := knowledge.chunks ++ [row] }

def insert (knowledge : Knowledge) (row : KnowledgeRow) : Except IngestError Knowledge :=
  match tables.rejects knowledge row with
  | some message => .error (.database message)
  | none => .ok (append knowledge row)

def document (request : IngestRequest) (count : Nat) : DocumentRow where
  id := tables.newId 0
  knowledgeBaseId := request.knowledgeBaseId
  filename := request.filename
  contentType := request.contentType
  status := "completed"
  chunkCount := count

def chunk (request : IngestRequest) (document : DocumentRow) (place : Nat) (piece : String)
    (vector : Json) : ChunkRow where
  id := tables.newId (place + 1)
  documentId := document.id
  knowledgeBaseId := request.knowledgeBaseId
  content := piece
  embedding := vector
  metadata := request.metadata.getD []

/-- The loop over `zip(pieces, vectors, strict=True)`. -/
def addChunks (request : IngestRequest) (document : DocumentRow) :
    Nat → List String → List Json → Work Knowledge KnowledgeRow IngestError Unit
  | _, [], [] => pure ()
  | place, piece :: pieces, vector :: vectors => do
      add (.chunk (tables.chunk request document place piece vector))
      addChunks request document (place + 1) pieces vectors
  | _, _ :: _, [] => throw (.valueError "zip() argument 2 is shorter than argument 1")
  | _, [], _ :: _ => throw (.valueError "zip() argument 2 is longer than argument 1")

/-- The document and its chunks in one transaction. -/
def store (request : IngestRequest) (pieces : List String) (vectors : List Json) :
    Work Knowledge KnowledgeRow IngestError DocumentRow := do
  let document := tables.document request pieces.length
  add (.document document)
  flush tables.insert
  tables.addChunks request document 0 pieces vectors
  commit tables.insert
  return document

/-- `PostgresRAGRepository.ingest_document`. -/
def ingestDocument (py : Builtins) (gateway : EmbeddingGateway) (rounds : Nat)
    (request : IngestRequest) : Work Knowledge KnowledgeRow IngestError DocumentRow := do
  let session : Session Knowledge KnowledgeRow ← get
  match session.working.bases.find? request.knowledgeBaseId with
  | none => throw (.valueError "knowledge base not found")
  | some base => do
      let chunks ← awaitLoop
        (chunkText rounds request.content.toList base.chunkSize base.chunkOverlap)
      let pieces := chunks.map String.ofList
      let vectors ← attempt (gateway.computeEmbeddings py pieces base.embeddingModel 1536)
      tables.store request pieces vectors

end KnowledgeTables

/-- A knowledge base as `create_knowledge_base` stores it. -/
def KnowledgeBaseRow.Chunkable (base : KnowledgeBaseRow) : Prop :=
  0 ≤ base.chunkOverlap ∧ base.chunkOverlap < base.chunkSize

theorem createKnowledgeBase_chunkable {newId : String} {request : KnowledgeBaseCreate}
    {base : KnowledgeBaseRow} (created : createKnowledgeBase newId request = .ok base) :
    base.Chunkable := by
  unfold createKnowledgeBase at created
  split at created
  next => contradiction
  next smaller =>
    cases created
    exact ⟨request.overlapBounds.1, Int.not_le.mp smaller⟩

/-- A reply with as many rows as there are inputs numbers its rows by the inputs. -/
def EmbeddingGateway.Numbered (gateway : EmbeddingGateway) : Prop :=
  ∀ request rows, gateway.aembedding request = .ok rows → rows.length = request.inputs.length →
    (rows.map EmbeddingRow.index).Perm ((List.range rows.length).map Int.ofNat)

/-- The provider returned this vector for the input at the place. -/
def EmbeddingGateway.Returned (gateway : EmbeddingGateway) (request : EmbeddingRequest)
    (place : Nat) (vector : Json) : Prop :=
  ∃ rows row, gateway.aembedding (gateway.resolved request) = .ok rows ∧ row ∈ rows ∧
    row.index = place ∧ vector = .arr row.embedding

section Embeddings
variable {py : Builtins} {gateway : EmbeddingGateway}

theorem index_insertionSort {rows : List EmbeddingRow}
    (numbered : (rows.map EmbeddingRow.index).Perm ((List.range rows.length).map Int.ofNat)) :
    (rows.insertionSort fun a b => a.index ≤ b.index).map EmbeddingRow.index =
      (List.range rows.length).map Int.ofNat := by
  have sorted := List.pairwise_insertionSort (fun a b : EmbeddingRow => a.index ≤ b.index) rows
  have permuted := ((List.perm_insertionSort (fun a b : EmbeddingRow => a.index ≤ b.index) rows).map
    EmbeddingRow.index).trans numbered
  refine permuted.eq_of_pairwise (fun _ _ _ _ => Int.le_antisymm) (List.pairwise_map.mpr sorted) ?_
  refine List.pairwise_map.mpr (List.pairwise_lt_range.imp fun less => ?_)
  exact Int.ofNat_le.mpr (Nat.le_of_lt less)

/-- For a single text the provider replies with a single row. -/
theorem computeEmbeddings_single {text model : String} {dimensions : Nat} {vectors : List Json}
    (computed : gateway.computeEmbeddings py [text] model dimensions = .ok vectors) :
    ∃ row, gateway.aembedding
        (gateway.resolved { model, inputs := [text], dimensions := some dimensions }) =
          .ok [row] ∧ vectors = [.arr row.embedding] := by
  simp only [EmbeddingGateway.computeEmbeddings, List.isEmpty_cons, Bool.false_eq_true,
    if_false] at computed
  cases replied : gateway.aembedding
      (gateway.resolved { model, inputs := [text], dimensions := some dimensions }) with
  | ok rows =>
      simp only [EmbeddingGateway.embed, replied, Except.mapError, bind, Except.bind,
        List.length_map, List.length_insertionSort, List.length_singleton] at computed
      split at computed
      next => contradiction
      next same =>
        cases computed
        obtain ⟨row, rfl⟩ := List.length_eq_one_iff.mp (not_not.mp same)
        exact ⟨row, rfl, rfl⟩
  | error exc =>
      cases normalized : normalizeModelError py exc <;>
        simp [EmbeddingGateway.embed, replied, normalized, bind, Except.bind, Except.mapError,
          pure, Except.pure] at computed

/-- The vectors are aligned with the texts. -/
theorem computeEmbeddings_ok (numbered : gateway.Numbered) {texts : List String} {model : String}
    {dimensions : Nat} {vectors : List Json}
    (computed : gateway.computeEmbeddings py texts model dimensions = .ok vectors) :
    vectors.length = texts.length ∧ ∀ place vector, vectors[place]? = some vector →
      gateway.Returned { model, inputs := texts, dimensions := some dimensions } place vector := by
  unfold EmbeddingGateway.computeEmbeddings at computed
  split at computed
  next none =>
    cases computed
    rw [List.isEmpty_iff.mp none]
    exact ⟨rfl, fun place vector found => by simp at found⟩
  next =>
    cases replied : gateway.aembedding
        (gateway.resolved { model, inputs := texts, dimensions := some dimensions }) with
    | ok rows =>
        simp only [EmbeddingGateway.embed, replied, Except.mapError, bind, Except.bind,
          List.length_map, List.length_insertionSort] at computed
        split at computed
        next => contradiction
        next same =>
          cases computed
          have count : rows.length = texts.length := not_not.mp same
          have sorted := index_insertionSort (numbered _ rows replied count)
          refine ⟨by simpa using count, fun place vector found => ?_⟩
          rw [List.getElem?_map, Option.map_eq_some_iff] at found
          obtain ⟨row, here, rfl⟩ := found
          refine ⟨rows, row, replied, ?_, ?_, rfl⟩
          · exact (List.mem_insertionSort _).mp (List.mem_of_getElem? here)
          · have index := congrArg (fun indices => indices[place]?) sorted
            simp only [List.getElem?_map, here, Option.map_some] at index
            obtain ⟨number, found, same⟩ := Option.map_eq_some_iff.mp index.symm
            obtain ⟨_, rfl⟩ := List.getElem?_eq_some_iff.mp found
            rw [← same, List.getElem_range]
            rfl
    | error exc =>
        cases normalized : normalizeModelError py exc <;>
          simp [EmbeddingGateway.embed, replied, normalized, bind, Except.bind, Except.mapError,
            pure, Except.pure] at computed

end Embeddings

namespace KnowledgeTables
variable {tables : KnowledgeTables}

def chunkRows (tables : KnowledgeTables) (request : IngestRequest) (document : DocumentRow) :
    Nat → List String → List Json → List ChunkRow
  | place, piece :: pieces, vector :: vectors =>
      tables.chunk request document place piece vector ::
        chunkRows tables request document (place + 1) pieces vectors
  | _, _, _ => []

variable {request : IngestRequest} {document : DocumentRow} {pieces : List String}
variable {vectors : List Json} {session : Session Knowledge KnowledgeRow}

theorem length_chunkRows (same : vectors.length = pieces.length) (place : Nat) :
    (tables.chunkRows request document place pieces vectors).length = pieces.length := by
  induction pieces generalizing vectors place with
  | nil => cases vectors <;> rfl
  | cons piece pieces ih =>
      cases vectors with
      | nil => contradiction
      | cons vector vectors =>
          rw [chunkRows, List.length_cons, ih (Nat.succ.inj same), List.length_cons]

theorem getElem?_chunkRows {piece : String} {vector : Json} {i : Nat}
    (text : pieces[i]? = some piece) (embedded : vectors[i]? = some vector) (place : Nat) :
    (tables.chunkRows request document place pieces vectors)[i]? =
      some (tables.chunk request document (place + i) piece vector) := by
  induction pieces generalizing vectors place i with
  | nil => contradiction
  | cons first pieces ih =>
      cases vectors with
      | nil => contradiction
      | cons vector vectors =>
          cases i with
          | zero =>
              cases text
              cases embedded
              rfl
          | succ i =>
              rw [chunkRows, List.getElem?_cons_succ, ih text embedded, Nat.add_right_comm]
              rfl

theorem runOn_addChunks (same : vectors.length = pieces.length) (place : Nat) :
    runOn session (tables.addChunks request document place pieces vectors) =
      some (.ok (), { session with added := session.added ++
        (tables.chunkRows request document place pieces vectors).map .chunk }) := by
  induction pieces generalizing vectors place session with
  | nil =>
      obtain rfl := List.length_eq_zero_iff.mp same
      simp [addChunks, chunkRows]
  | cons piece pieces ih =>
      cases vectors with
      | nil => contradiction
      | cons vector vectors =>
          rw [addChunks, runOn_bind_ok (runOn_add _), ih (Nat.succ.inj same)]
          simp [chunkRows]

theorem foldlM_insert_ok {rows : List KnowledgeRow} {knowledge result : Knowledge}
    (accepted : rows.foldlM tables.insert knowledge = .ok result) :
    result = rows.foldl append knowledge := by
  induction rows generalizing knowledge with
  | nil =>
      cases accepted
      rfl
  | cons row rows ih =>
      rw [List.foldlM_cons] at accepted
      cases rejected : tables.rejects knowledge row with
      | some message => simp [insert, rejected, bind, Except.bind] at accepted
      | none =>
          simp only [insert, rejected, bind, Except.bind] at accepted
          exact ih accepted

theorem foldl_append_chunks (rows : List ChunkRow) (knowledge : Knowledge) :
    (rows.map KnowledgeRow.chunk).foldl append knowledge =
      { knowledge with chunks := knowledge.chunks ++ rows } := by
  induction rows generalizing knowledge with
  | nil => simp
  | cons row rows ih => simp [ih, append]

variable (tables request) in
/-- The transaction stores the document with all its chunks, or nothing. -/
theorem store_outcome (stored : Knowledge) (same : vectors.length = pieces.length) :
    ∃ result session', runOn (.opened stored) (tables.store request pieces vectors) =
        some (result, session') ∧
      ((∃ error, result = .error error ∧ session'.stored = stored) ∨
        (result = .ok (tables.document request pieces.length) ∧ session'.stored =
          { stored with
            documents := stored.documents ++ [tables.document request pieces.length]
            chunks := stored.chunks ++ tables.chunkRows request
              (tables.document request pieces.length) 0 pieces vectors })) := by
  unfold store
  dsimp only
  rw [runOn_bind_ok (runOn_add _)]
  cases flushed : [KnowledgeRow.document (tables.document request pieces.length)].foldlM
      tables.insert stored with
  | error error =>
      exact ⟨_, _, runOn_bind_error (runOn_flush_error flushed), .inl ⟨error, rfl, rfl⟩⟩
  | ok working =>
      rw [runOn_bind_ok (runOn_flush_ok flushed), runOn_bind_ok (runOn_addChunks same 0)]
      cases committed : ((tables.chunkRows request (tables.document request pieces.length) 0 pieces
          vectors).map KnowledgeRow.chunk).foldlM tables.insert working with
      | error error =>
          exact ⟨_, _, runOn_bind_error (runOn_commit_error committed), .inl ⟨error, rfl, rfl⟩⟩
      | ok final =>
          refine ⟨_, _, runOn_bind_ok (runOn_commit_ok committed), .inr ⟨rfl, ?_⟩⟩
          have first : working = append stored (.document _) := foldlM_insert_ok flushed
          have last := foldlM_insert_ok committed
          rw [foldl_append_chunks, first] at last
          exact last

end KnowledgeTables

/-- One document and its chunks are stored, in the order of the pieces. -/
structure Ingested (gateway : EmbeddingGateway) (base : KnowledgeBaseRow) (pieces : List String)
    (stored stored' : Knowledge) (document : DocumentRow) (chunks : List ChunkRow) : Prop where
  written : stored' = { stored with
    documents := stored.documents ++ [document], chunks := stored.chunks ++ chunks }
  counted : document.chunkCount = pieces.length
  complete : chunks.length = pieces.length
  aligned : ∀ (place : Nat) (chunk : ChunkRow), chunks[place]? = some chunk →
    chunk.documentId = document.id ∧ pieces[place]? = some chunk.content ∧
      gateway.Returned
        { model := base.embeddingModel, inputs := pieces, dimensions := some 1536 } place
        chunk.embedding

/-- What follows the cutting of the text stores all or nothing. -/
theorem ingestDocument_outcome (py : Builtins) {gateway : EmbeddingGateway}
    (numbered : gateway.Numbered) (tables : KnowledgeTables) (request : IngestRequest)
    {stored : Knowledge} {base : KnowledgeBaseRow}
    (found : stored.bases.find? request.knowledgeBaseId = some base) (chunks : List (List Char)) :
    ∃ result stored', (∀ rounds, chunkText rounds request.content.toList base.chunkSize
        base.chunkOverlap = some chunks →
          transact stored (tables.ingestDocument py gateway rounds request) =
            some (result, stored')) ∧
      ((∃ error, result = .error error ∧ stored' = stored) ∨
        ∃ document rows, result = .ok document ∧
          Ingested gateway base (chunks.map String.ofList) stored stored' document rows) := by
  cases computed : gateway.computeEmbeddings py (chunks.map String.ofList) base.embeddingModel
      1536 with
  | error error =>
      refine ⟨.error error, stored, fun rounds cut => ?_, .inl ⟨error, rfl, rfl⟩⟩
      rw [transact, KnowledgeTables.ingestDocument, runOn_bind_ok runOn_get]
      simp only [Session.opened, found, cut]
      rw [runOn_bind_ok (runOn_awaitLoop _), computed, runOn_bind_error (runOn_attempt _)]
      rfl
  | ok vectors =>
      obtain ⟨same, aligned⟩ := computeEmbeddings_ok numbered computed
      obtain ⟨result, session', runs, outcome⟩ :=
        tables.store_outcome request stored same
      refine ⟨result, session'.stored, fun rounds cut => ?_, outcome.imp_right ?_⟩
      · rw [transact, KnowledgeTables.ingestDocument, runOn_bind_ok runOn_get]
        simp only [Session.opened, found, cut]
        rw [runOn_bind_ok (runOn_awaitLoop _), computed, runOn_bind_ok (runOn_attempt _)]
        exact congrArg _ runs
      · rintro ⟨done, written⟩
        refine ⟨_, _, done, written, rfl, KnowledgeTables.length_chunkRows same 0, ?_⟩
        intro place chunk here
        obtain ⟨short, _⟩ := List.getElem?_eq_some_iff.mp here
        rw [KnowledgeTables.length_chunkRows same] at short
        have text := List.getElem?_eq_getElem short
        have embedded := List.getElem?_eq_getElem (l := vectors) (i := place) (by omega)
        rw [KnowledgeTables.getElem?_chunkRows text embedded, Option.some.injEq] at here
        subst here
        exact ⟨rfl, text, aligned place _ embedded⟩

/-- The ingestion raises and stores nothing, or it stores the document with the chunks of the text,
and each chunk has the vector that the provider returned for it. -/
theorem ingestDocument_atomic (py : Builtins) {gateway : EmbeddingGateway}
    (numbered : gateway.Numbered) (tables : KnowledgeTables) (request : IngestRequest)
    {stored : Knowledge}
    (chunkable : ∀ base, stored.bases.find? request.knowledgeBaseId = some base → base.Chunkable) :
    ∃ result stored', (∀ rounds, request.content.length ≤ rounds →
        transact stored (tables.ingestDocument py gateway rounds request) =
          some (result, stored')) ∧
      ((∃ error, result = .error error ∧ stored' = stored) ∨
        ∃ base chunks document rows,
          stored.bases.find? request.knowledgeBaseId = some base ∧
          chunkText request.content.length request.content.toList base.chunkSize
            base.chunkOverlap = some chunks ∧ result = .ok document ∧
          Ingested gateway base (chunks.map String.ofList) stored stored' document rows) := by
  cases found : stored.bases.find? request.knowledgeBaseId with
  | none =>
      refine ⟨.error (.valueError "knowledge base not found"), stored, fun rounds _ => ?_,
        .inl ⟨_, rfl, rfl⟩⟩
      rw [transact, KnowledgeTables.ingestDocument, runOn_bind_ok runOn_get]
      simp [Session.opened, found]
  | some base =>
      obtain ⟨below, less⟩ := chunkable base found
      obtain ⟨size, sized⟩ := Int.eq_ofNat_of_zero_le (Int.le_of_lt (Int.lt_of_le_of_lt below less))
      obtain ⟨overlap, shared⟩ := Int.eq_ofNat_of_zero_le below
      rw [sized, shared] at less
      obtain ⟨chunks, ends, _⟩ := chunkText_covers request.content.toList (Int.ofNat_lt.mp less)
      rw [← sized, ← shared] at ends
      obtain ⟨result, stored', returns, outcome⟩ :=
        ingestDocument_outcome py numbered tables request found chunks
      refine ⟨result, stored', fun rounds enough => returns rounds (ends rounds enough), ?_⟩
      refine outcome.imp_right ?_
      rintro ⟨document, rows, done, ingested⟩
      exact ⟨base, chunks, document, rows, rfl, ends _ (Nat.le_refl _), done, ingested⟩

section Sample

/-- A provider that returns its rows from the last input to the first. -/
def reversingGateway : EmbeddingGateway where
  defaultModel := "text-embedding-3-small"
  aembedding request :=
    .ok ((List.range request.inputs.length).reverse.map fun i : Nat => ⟨Int.ofNat i, [.int i]⟩)

theorem reversingGateway_numbered : reversingGateway.Numbered := by
  intro request rows replied _
  cases replied
  simp only [List.map_map, List.length_map, List.length_reverse, List.length_range]
  exact (List.reverse_perm _).map _

def guideKnowledge : Knowledge where
  bases := Table.empty.insert ⟨"kb", "guides", "", "text-embedding-3-small", 3, 1⟩
  documents := []
  chunks := []

def openTables : KnowledgeTables where
  rejects _ _ := none
  newId n := n.repr

/-- Two chunks, and the document that counts them. -/
theorem guide_ingested : ∃ document stored',
    transact guideKnowledge (openTables.ingestDocument .onEmpty reversingGateway 5
      ⟨"kb", "guide", "abcde", "text", none⟩) = some (.ok document, stored') ∧
    document.chunkCount = 2 ∧ stored'.chunks.map ChunkRow.content = ["abc", "cde"] := by
  have chunkable : ∀ base, guideKnowledge.bases.find? "kb" = some base → base.Chunkable := by
    intro base found
    cases found
    exact ⟨by decide, by decide⟩
  obtain ⟨result, stored', returns, outcome⟩ := ingestDocument_atomic .onEmpty
    reversingGateway_numbered openTables ⟨"kb", "guide", "abcde", "text", none⟩ chunkable
  have run := returns 5 (by decide)
  rcases outcome with ⟨error, rfl, _⟩ | ⟨base, chunks, document, rows, found, cut, rfl, ingested⟩
  · cases run
  · refine ⟨document, stored', run, ?_⟩
    cases run
    exact ⟨rfl, rfl⟩

end Sample
end AgentRuntime
