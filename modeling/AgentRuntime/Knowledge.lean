import AgentRuntime.Library.Pools
import AgentRuntime.Ingestion

/-! The knowledge bases under any number of concurrent requests. An ingestion goes statement by
statement and commits once, a retrieval reads the base, waits for its embedding and searches what
is committed then, and knowledge bases are created in between. The index of the vectors is a
parameter. -/
namespace AgentRuntime
open Machines Pools Sessions Tables Windows

/-- A search of pgvector: how far a vector is from the query, and the rows an `ORDER BY` of the
distance with a `LIMIT` finds. -/
structure VectorIndex where
  distance : Json → Json → Rat
  scan : List ChunkRow → Json → Nat → List ChunkRow

/-- The rows come in their order. The approximate index may leave some out. -/
structure VectorIndex.Ordered (index : VectorIndex) : Prop where
  rows : ∀ stored vector limit, (index.scan stored vector limit).Subperm stored
  ordered : ∀ stored vector limit, (index.scan stored vector limit).Pairwise fun a b =>
    index.distance vector a.embedding ≤ index.distance vector b.embedding
  limited : ∀ stored vector limit, (index.scan stored vector limit).length ≤ limit

namespace Knowledge

/-- The primary and foreign keys of the tables. -/
def violation (knowledge : Knowledge) : KnowledgeRow → Option String
  | .document row =>
      if knowledge.documents.any fun other => other.id = row.id then some "documents_pkey"
      else if (knowledge.bases.find? row.knowledgeBaseId).isNone then
        some "documents_knowledge_base_id_fkey"
      else none
  | .chunk row =>
      if knowledge.chunks.any fun other => other.id = row.id then some "knowledge_chunks_pkey"
      else if !knowledge.documents.any fun other => other.id = row.documentId then
        some "knowledge_chunks_document_id_fkey"
      else if (knowledge.bases.find? row.knowledgeBaseId).isNone then
        some "knowledge_chunks_knowledge_base_id_fkey"
      else none

def chunksOf (knowledge : Knowledge) (document : DocumentRow) : List ChunkRow :=
  knowledge.chunks.filter fun chunk => chunk.documentId = document.id

/-- The transaction of `create_knowledge_base`. -/
def create (knowledge : Knowledge) (newId : String) (request : KnowledgeBaseCreate) :
    Option Knowledge :=
  match createKnowledgeBase newId request, knowledge.bases.find? newId with
  | .ok base, none => some { knowledge with bases := knowledge.bases.insert base }
  | _, _ => none

end Knowledge

inductive IngestPhase where
  | called
  | loaded (base : KnowledgeBaseRow)
  | embedded (base : KnowledgeBaseRow) (pieces : List String) (vectors : List Json)
  | flushed (base : KnowledgeBaseRow) (pieces : List String) (vectors : List Json)
  | committed (document : DocumentRow)
  | returned (document : DocumentRow)
  | raised (error : IngestError)

def IngestPhase.ends : IngestPhase → Bool
  | .returned _ | .raised _ => true
  | _ => false

/-- A call of `ingest_document`, with the replies it gets, the ids it draws and what the columns
reject of its rows. -/
structure IngestCall where
  gateway : EmbeddingGateway
  numbered : gateway.Numbered
  request : IngestRequest
  newId : Nat → String
  faults : KnowledgeRow → Option String
  phase : IngestPhase := .called

inductive RetrievePhase where
  | called
  | loaded (base : KnowledgeBaseRow)
  | embedded (vector : Json)
  | answered (rows : List ChunkRow)
  | failed (result : ToolResult)
  | raised (error : IngestError)

def RetrievePhase.ends : RetrievePhase → Bool
  | .answered _ | .failed _ | .raised _ => true
  | _ => false

/-- A call of `retrieve`. -/
structure RetrieveCall where
  gateway : EmbeddingGateway
  scope : ToolScope := {}
  knowledgeBaseId : String
  query : String
  topK : Int := 5
  phase : RetrievePhase := .called

inductive KnowledgeCall where
  | ingest (call : IngestCall)
  | retrieve (call : RetrieveCall)

/-- A committed ingestion. -/
structure Ingestion where
  call : IngestCall
  base : KnowledgeBaseRow
  document : DocumentRow
  chunks : List ChunkRow

/-- What is committed, and the ingestions that wrote it, in their order. -/
structure Library where
  knowledge : Knowledge
  ingested : List Ingestion := []

inductive KnowledgeChoice where
  | next
  | abort

namespace IngestCall
variable (py : Builtins) (call : IngestCall)

def tables : KnowledgeTables where
  rejects knowledge row := (knowledge.violation row).or (call.faults row)
  newId := call.newId

def goto (phase : IngestPhase) : IngestCall := { call with phase }

/-- The id of the document that the open transaction has inserted. -/
def inserted? : Option String :=
  match call.phase with
  | .flushed .. => some (call.newId 0)
  | _ => none

/-- The transaction behind the flush of the document. -/
def session (s : Library) (document : DocumentRow) : Session Knowledge KnowledgeRow where
  stored := s.knowledge
  working := KnowledgeTables.append s.knowledge (.document document)

/-- The statements behind the flush of the document. -/
def finish (pieces : List String) (vectors : List Json) :
    Work Knowledge KnowledgeRow IngestError Unit := do
  call.tables.addChunks call.request (call.tables.document call.request pieces.length) 0 pieces
    vectors
  commit call.tables.insert

/-- The next statement of the call. The insertion of a document waits for one with the same id
that another transaction has not committed. -/
def advance (s : Library) (others : List IngestCall) : Option (Library × IngestCall) :=
  match call.phase with
  | .called =>
      match s.knowledge.bases.find? call.request.knowledgeBaseId with
      | none => some (s, call.goto (.raised (.valueError "knowledge base not found")))
      | some base => some (s, call.goto (.loaded base))
  | .loaded base =>
      (chunkText call.request.content.length call.request.content.toList base.chunkSize
          base.chunkOverlap).map fun chunks =>
        let pieces := chunks.map String.ofList
        match call.gateway.computeEmbeddings py pieces base.embeddingModel 1536 with
        | .ok vectors => (s, call.goto (.embedded base pieces vectors))
        | .error error => (s, call.goto (.raised error))
  | .embedded base pieces vectors =>
      let document := call.tables.document call.request pieces.length
      if others.any fun other => other.inserted? = some document.id then none
      else
        match call.tables.insert s.knowledge (.document document) with
        | .ok _ => some (s, call.goto (.flushed base pieces vectors))
        | .error error => some (s, call.goto (.raised error))
  | .flushed base pieces vectors =>
      let document := call.tables.document call.request pieces.length
      (runOn (session s document) (call.finish pieces vectors)).map fun (result, after) =>
        match result with
        | .ok () =>
            ({ knowledge := after.stored
               ingested := s.ingested ++ [⟨call, base, document,
                call.tables.chunkRows call.request document 0 pieces vectors⟩] },
              call.goto (.committed document))
        | .error error => (s, call.goto (.raised error))
  | .committed document =>
      match s.knowledge.documents.find? fun row => row.id = document.id with
      | some row => some (s, call.goto (.returned row))
      | none => some (s, call.goto (.raised (.database "could not refresh instance")))
  | .returned _ | .raised _ => none

end IngestCall

namespace RetrieveCall
variable (py : Builtins) (index : VectorIndex) (call : RetrieveCall)

def goto (phase : RetrievePhase) : RetrieveCall := { call with phase }

/-- `max(1, min(top_k, 50))`. -/
def limit : Nat := (max 1 (min call.topK 50)).toNat

def advance (s : Library) : Option RetrieveCall :=
  match call.phase with
  | .called =>
      let name := "knowledge base '" ++ call.knowledgeBaseId ++ "' not "
      if !call.scope.isAllowed py call.knowledgeBaseId then
        some (call.goto (.failed (.fail .ragError (name ++ "in scope"))))
      else
        match s.knowledge.bases.find? call.knowledgeBaseId with
        | none => some (call.goto (.failed (.fail .ragError (name ++ "found"))))
        | some base => some (call.goto (.loaded base))
  | .loaded base =>
      match call.gateway.computeEmbeddings py [call.query] base.embeddingModel 1536 with
      | .ok vectors => some (call.goto (.embedded (vectors.headD .null)))
      | .error error => some (call.goto (.raised error))
  | .embedded vector =>
      let stored := s.knowledge.chunks.filter fun chunk =>
        chunk.knowledgeBaseId = call.knowledgeBaseId
      some (call.goto (.answered (index.scan stored vector call.limit)))
  | .answered _ | .failed _ | .raised _ => none

end RetrieveCall

namespace KnowledgeCall

def ingest? : KnowledgeCall → Option IngestCall
  | .ingest call => some call
  | .retrieve _ => none

def fresh : KnowledgeCall → Bool
  | .ingest call => match call.phase with
    | .called => true
    | _ => false
  | .retrieve call => match call.phase with
    | .called => true
    | _ => false

/-- The next statement of a call. Any statement may fail, which undoes what is not committed. -/
def advance (py : Builtins) (index : VectorIndex) (choice : KnowledgeChoice) (s : Library)
    (others : List KnowledgeCall) : KnowledgeCall → Option (Library × KnowledgeCall)
  | .ingest call =>
      match choice with
      | .next => (call.advance py s (others.filterMap ingest?)).map fun after =>
          (after.1, .ingest after.2)
      | .abort =>
          if call.phase.ends then none
          else some (s, .ingest (call.goto (.raised (.database "connection lost"))))
  | .retrieve call =>
      match choice with
      | .next => (call.advance py index s).map fun after => (s, .retrieve after)
      | .abort =>
          if call.phase.ends then none
          else some (s, .retrieve (call.goto (.raised (.database "connection lost"))))

end KnowledgeCall

/-- The calls over the tables, while knowledge bases are created. -/
def librarians (py : Builtins) (index : VectorIndex) :
    Pool Library KnowledgeCall KnowledgeChoice (String × KnowledgeBaseCreate) where
  init s := s = ⟨⟨.empty, [], []⟩, []⟩
  fresh := KnowledgeCall.fresh
  advance := KnowledgeCall.advance py index
  around event s _ :=
    (s.knowledge.create event.1 event.2).map fun knowledge => { s with knowledge }

inductive KnowledgeOp where
  | create (newId : String) (request : KnowledgeBaseCreate)
  | ingest (call : IngestCall)

/-- The requests one after the other: an ingestion is one transaction. -/
def knowledgeStore (py : Builtins) : Machine Knowledge KnowledgeOp where
  init knowledge := knowledge = ⟨.empty, [], []⟩
  step knowledge
    | .create newId request => knowledge.create newId request
    | .ingest call =>
        (transact knowledge (call.tables.ingestDocument py call.gateway
          call.request.content.length call.request)).map Prod.snd

/-- The ingestion wrote the pieces of its text under one document, each with its vector. -/
structure Ingestion.Whole (bases : Table KnowledgeBaseRow) (ingestion : Ingestion) : Prop where
  stored : bases.find? ingestion.call.request.knowledgeBaseId = some ingestion.base
  document : ingestion.document =
    ingestion.call.tables.document ingestion.call.request ingestion.chunks.length
  owned : ∀ chunk ∈ ingestion.chunks, chunk.documentId = ingestion.document.id ∧
    chunk.knowledgeBaseId = ingestion.document.knowledgeBaseId
  pieces : ∃ chunks, chunkText ingestion.call.request.content.length
      ingestion.call.request.content.toList ingestion.base.chunkSize ingestion.base.chunkOverlap =
        some chunks ∧
    ingestion.chunks.map ChunkRow.content = chunks.map String.ofList ∧
    ∀ (place : Nat) (chunk : ChunkRow), ingestion.chunks[place]? = some chunk →
      ingestion.call.gateway.Returned
        { model := ingestion.base.embeddingModel, inputs := chunks.map String.ofList,
          dimensions := some 1536 } place chunk.embedding

/-- The tables hold what the ingestions wrote, and nothing else. -/
structure Library.Sound (py : Builtins) (s : Library) : Prop where
  serial : Reachable (knowledgeStore py) anyStep s.knowledge
  documents : s.knowledge.documents = s.ingested.map Ingestion.document
  chunks : s.knowledge.chunks = s.ingested.flatMap Ingestion.chunks
  distinct : (s.knowledge.documents.map DocumentRow.id).Nodup
  whole : ∀ ingestion ∈ s.ingested, ingestion.Whole s.knowledge.bases
  chunkable : ∀ id base, s.knowledge.bases.find? id = some base → base.Chunkable

/-- Nothing that is committed is written again. -/
structure Library.Grows (s t : Library) : Prop where
  bases : ∀ id base, s.knowledge.bases.find? id = some base →
    t.knowledge.bases.find? id = some base
  chunks : s.knowledge.chunks <+: t.knowledge.chunks
  ingested : s.ingested <+: t.ingested

theorem Library.Grows.refl (s : Library) : s.Grows s :=
  ⟨fun _ _ found => found, List.prefix_rfl, List.prefix_rfl⟩

/-- What an open ingestion has read and got so far. -/
structure IngestCall.Prepared (py : Builtins) (s : Library) (call : IngestCall)
    (base : KnowledgeBaseRow) (pieces : List String) (vectors : List Json) : Prop where
  loaded : s.knowledge.bases.find? call.request.knowledgeBaseId = some base
  cut : ∃ chunks, chunkText call.request.content.length call.request.content.toList base.chunkSize
    base.chunkOverlap = some chunks ∧ pieces = chunks.map String.ofList
  computed : call.gateway.computeEmbeddings py pieces base.embeddingModel 1536 = .ok vectors

/-- What holds of an ingestion in each of its phases. -/
def IngestCall.Steady (py : Builtins) (s : Library) (call : IngestCall) : Prop :=
  match call.phase with
  | .loaded base => s.knowledge.bases.find? call.request.knowledgeBaseId = some base
  | .embedded base pieces vectors => call.Prepared py s base pieces vectors
  | .flushed base pieces vectors => call.Prepared py s base pieces vectors ∧
      call.tables.rejects s.knowledge
        (.document (call.tables.document call.request pieces.length)) = none
  | .committed document | .returned document => ∃ ingestion ∈ s.ingested,
      ingestion.document = document ∧ ingestion.call.request = call.request
  | .called | .raised _ => True

/-- The vector that the provider returned for the query, under the model of the knowledge base. -/
def RetrieveCall.Embeds (s : Library) (call : RetrieveCall) (vector : Json) : Prop :=
  ∃ base row, s.knowledge.bases.find? call.knowledgeBaseId = some base ∧
    call.gateway.aembedding (call.gateway.resolved
      { model := base.embeddingModel, inputs := [call.query], dimensions := some 1536 }) =
        .ok [row] ∧
    vector = .arr row.embedding

/-- The rows are some of those the search may see, in order of their distance to the query. -/
structure RetrieveCall.Found (index : VectorIndex) (s : Library) (call : RetrieveCall)
    (rows : List ChunkRow) : Prop where
  stored : rows.Subperm (s.knowledge.chunks.filter fun chunk =>
    chunk.knowledgeBaseId = call.knowledgeBaseId)
  limited : rows.length ≤ call.limit
  ordered : ∃ vector, call.Embeds s vector ∧ rows.Pairwise fun a b =>
    index.distance vector a.embedding ≤ index.distance vector b.embedding

def RetrieveCall.Steady (py : Builtins) (index : VectorIndex) (s : Library)
    (call : RetrieveCall) : Prop :=
  match call.phase with
  | .loaded base => call.scope.isAllowed py call.knowledgeBaseId = true ∧
      s.knowledge.bases.find? call.knowledgeBaseId = some base
  | .embedded vector => call.scope.isAllowed py call.knowledgeBaseId = true ∧
      call.Embeds s vector
  | .answered rows => call.scope.isAllowed py call.knowledgeBaseId = true ∧
      call.Found index s rows
  | .called | .failed _ | .raised _ => True

namespace KnowledgeCall

def Steady (py : Builtins) (index : VectorIndex) (s : Library) : KnowledgeCall → Prop
  | .ingest call => call.Steady py s
  | .retrieve call => call.Steady py index s

/-- Two open ingestions have not inserted the same id. -/
def Apart (a b : KnowledgeCall) : Prop :=
  ∀ x y, a.ingest? = some x → b.ingest? = some y → ∀ id, x.inserted? = some id →
    y.inserted? ≠ some id

end KnowledgeCall

section Steps
variable {py : Builtins} {index : VectorIndex} {s t : Library} {call next : IngestCall}

theorem rejects_none {knowledge : Knowledge} {row : DocumentRow} :
    call.tables.rejects knowledge (.document row) = none ↔
      (∀ other ∈ knowledge.documents, other.id ≠ row.id) ∧
        knowledge.bases.find? row.knowledgeBaseId ≠ none ∧ call.faults (.document row) = none := by
  simp only [IngestCall.tables, Option.or_eq_none_iff, Knowledge.violation]
  constructor
  · rintro ⟨accepted, clean⟩
    split at accepted
    next => contradiction
    next fresh =>
      split at accepted
      next => contradiction
      next known => exact ⟨by simpa using fresh, by simpa using known, clean⟩
  · rintro ⟨fresh, known, clean⟩
    rw [if_neg (by simpa using fresh), if_neg (by simpa using known)]
    exact ⟨rfl, clean⟩

/-- An ingestion is not disturbed by what the others commit. -/
theorem IngestCall.Steady.undisturbed (steady : call.Steady py s) (grows : s.Grows t)
    (apart : ∀ document ∈ t.knowledge.documents, document ∈ s.knowledge.documents ∨
      call.inserted? ≠ some document.id) : call.Steady py t := by
  have prepared {base pieces vectors} (prepared : call.Prepared py s base pieces vectors) :
      call.Prepared py t base pieces vectors :=
    ⟨grows.bases _ _ prepared.loaded, prepared.cut, prepared.computed⟩
  unfold IngestCall.Steady at steady ⊢
  split at steady
  next => exact grows.bases _ _ steady
  next => exact prepared steady
  next base pieces vectors flushed =>
    obtain ⟨before, accepted⟩ := steady
    obtain ⟨fresh, known, clean⟩ := rejects_none.mp accepted
    refine ⟨prepared before, rejects_none.mpr ⟨fun other member same => ?_, ?_, clean⟩⟩
    · rcases apart other member with old | new
      · exact fresh other old same
      · refine new ?_
        rw [IngestCall.inserted?, flushed, same]
        rfl
    · obtain ⟨base, found⟩ := Option.ne_none_iff_exists'.mp known
      rw [grows.bases _ _ found]
      exact Option.some_ne_none _
  next =>
    obtain ⟨ingestion, member, same⟩ := steady
    exact ⟨ingestion, grows.ingested.subset member, same⟩
  next =>
    obtain ⟨ingestion, member, same⟩ := steady
    exact ⟨ingestion, grows.ingested.subset member, same⟩
  next => trivial
  next => trivial

theorem RetrieveCall.Embeds.mono {call : RetrieveCall} {vector : Json}
    (embeds : call.Embeds s vector) (grows : s.Grows t) : call.Embeds t vector := by
  obtain ⟨base, row, stored, replied, same⟩ := embeds
  exact ⟨base, row, grows.bases _ _ stored, replied, same⟩

theorem RetrieveCall.Steady.undisturbed {call : RetrieveCall} (steady : call.Steady py index s)
    (grows : s.Grows t) : call.Steady py index t := by
  unfold RetrieveCall.Steady at steady ⊢
  split at steady
  next => exact ⟨steady.1, grows.bases _ _ steady.2⟩
  next => exact ⟨steady.1, steady.2.mono grows⟩
  next rows answered =>
    obtain ⟨allowed, found⟩ := steady
    obtain ⟨vector, embeds, order⟩ := found.ordered
    exact ⟨allowed, found.stored.trans (grows.chunks.sublist.filter _).subperm, found.limited,
      vector, embeds.mono grows, order⟩
  next => trivial
  next => trivial
  next => trivial

end Steps

section Commits
variable {py : Builtins} {s : Library} {call : IngestCall} {base : KnowledgeBaseRow}
  {pieces : List String} {vectors : List Json} {after : Session Knowledge KnowledgeRow}

theorem IngestCall.Prepared.goto (prepared : call.Prepared py s base pieces vectors)
    (phase : IngestPhase) : (call.goto phase).Prepared py s base pieces vectors :=
  ⟨prepared.loaded, prepared.cut, prepared.computed⟩

theorem IngestCall.Prepared.aligned (prepared : call.Prepared py s base pieces vectors) :
    vectors.length = pieces.length :=
  (computeEmbeddings_ok call.numbered prepared.computed).1

theorem finish_ok {stored working : Knowledge} (aligned : vectors.length = pieces.length)
    (ran : runOn { stored, working } (call.finish pieces vectors) = some (.ok (), after)) :
    ((call.tables.chunkRows call.request (call.tables.document call.request pieces.length) 0 pieces
      vectors).map KnowledgeRow.chunk).foldlM call.tables.insert working = .ok after.stored := by
  rw [IngestCall.finish, runOn_bind_ok (KnowledgeTables.runOn_addChunks aligned 0)] at ran
  cases accepted : ((call.tables.chunkRows call.request
      (call.tables.document call.request pieces.length) 0 pieces vectors).map
      KnowledgeRow.chunk).foldlM call.tables.insert working with
  | ok final =>
      rw [runOn_commit_ok accepted] at ran
      cases ran
      rfl
  | error error =>
      rw [runOn_commit_error accepted] at ran
      cases ran

/-- What the call has committed, it would have committed in one step. -/
theorem transact_ingest (prepared : call.Prepared py s base pieces vectors)
    (accepted : call.tables.rejects s.knowledge
      (.document (call.tables.document call.request pieces.length)) = none)
    (ran : runOn (IngestCall.session s (call.tables.document call.request pieces.length))
      (call.finish pieces vectors) = some (.ok (), after)) :
    transact s.knowledge (call.tables.ingestDocument py call.gateway call.request.content.length
        call.request) =
      some (.ok (call.tables.document call.request pieces.length), after.stored) := by
  obtain ⟨chunks, cut, rfl⟩ := prepared.cut
  have committed := finish_ok prepared.aligned ran
  have flushed : [KnowledgeRow.document (call.tables.document call.request
      (chunks.map String.ofList).length)].foldlM call.tables.insert s.knowledge =
        .ok (KnowledgeTables.append s.knowledge (.document (call.tables.document call.request
          (chunks.map String.ofList).length))) := by
    simp only [List.foldlM_cons, List.foldlM_nil, KnowledgeTables.insert, accepted, bind,
      Except.bind, pure, Except.pure]
  rw [transact, KnowledgeTables.ingestDocument, runOn_bind_ok runOn_get]
  simp only [Session.opened, prepared.loaded, cut]
  rw [runOn_bind_ok (runOn_awaitLoop _), prepared.computed, runOn_bind_ok (runOn_attempt _),
    KnowledgeTables.store, runOn_bind_ok (runOn_add _), runOn_bind_ok (runOn_flush_ok flushed),
    runOn_bind_ok (KnowledgeTables.runOn_addChunks prepared.aligned 0),
    runOn_bind_ok (runOn_commit_ok committed)]
  rfl

/-- The commit adds the document and its chunks. -/
theorem finish_stored {document : DocumentRow} (aligned : vectors.length = pieces.length)
    (same : document = call.tables.document call.request pieces.length)
    (ran : runOn (IngestCall.session s document) (call.finish pieces vectors) =
      some (.ok (), after)) :
    after.stored = { s.knowledge with
      documents := s.knowledge.documents ++ [document]
      chunks := s.knowledge.chunks ++
        call.tables.chunkRows call.request document 0 pieces vectors } := by
  subst same
  have committed := KnowledgeTables.foldlM_insert_ok (finish_ok aligned ran)
  rw [KnowledgeTables.foldl_append_chunks] at committed
  exact committed

/-- The rows that are committed are the pieces of the text with their vectors. -/
theorem IngestCall.Prepared.whole (prepared : call.Prepared py s base pieces vectors) :
    Ingestion.Whole s.knowledge.bases ⟨call, base,
      call.tables.document call.request pieces.length, call.tables.chunkRows call.request
        (call.tables.document call.request pieces.length) 0 pieces vectors⟩ := by
  have length : (call.tables.chunkRows call.request
      (call.tables.document call.request pieces.length) 0 pieces vectors).length =
        pieces.length := KnowledgeTables.length_chunkRows prepared.aligned 0
  have rows (place : Nat) (chunk : ChunkRow) (here : (call.tables.chunkRows call.request
      (call.tables.document call.request pieces.length) 0 pieces vectors)[place]? = some chunk) :
      ∃ piece vector, pieces[place]? = some piece ∧ vectors[place]? = some vector ∧
        chunk = call.tables.chunk call.request (call.tables.document call.request pieces.length)
          place piece vector := by
    obtain ⟨short, _⟩ := List.getElem?_eq_some_iff.mp here
    rw [length] at short
    have text := List.getElem?_eq_getElem short
    have embedded := List.getElem?_eq_getElem (l := vectors) (i := place)
      (prepared.aligned ▸ short)
    rw [KnowledgeTables.getElem?_chunkRows text embedded, Option.some.injEq, Nat.zero_add] at here
    exact ⟨_, _, text, embedded, here.symm⟩
  refine ⟨prepared.loaded, by rw [length], fun chunk member => ?_, ?_⟩
  · obtain ⟨place, here⟩ := List.mem_iff_getElem?.mp member
    obtain ⟨_, _, _, _, rfl⟩ := rows place chunk here
    exact ⟨rfl, rfl⟩
  · obtain ⟨chunks, cut, same⟩ := prepared.cut
    refine ⟨chunks, cut, ?_, fun place chunk here => ?_⟩
    · rw [← same]
      refine List.ext_getElem? fun place => ?_
      rw [List.getElem?_map]
      cases here : (call.tables.chunkRows call.request
          (call.tables.document call.request pieces.length) 0 pieces vectors)[place]? with
      | none =>
          rw [List.getElem?_eq_none_iff, length] at here
          rw [List.getElem?_eq_none here]
          rfl
      | some chunk =>
          obtain ⟨_, _, text, _, rfl⟩ := rows place chunk here
          exact text.symm
    · obtain ⟨_, vector, _, embedded, rfl⟩ := rows place chunk here
      rw [← same]
      exact (computeEmbeddings_ok call.numbered prepared.computed).2 place vector embedded

end Commits

section Rule
variable {py : Builtins} {index : VectorIndex} {s t : Library} {call next : IngestCall}

/-- The commit of an ingestion, which is the last of those that are logged. -/
theorem Library.Sound.commit (sound : s.Sound py) {base : KnowledgeBaseRow} {pieces : List String}
    {vectors : List Json} {after : Session Knowledge KnowledgeRow}
    (prepared : call.Prepared py s base pieces vectors)
    (accepted : call.tables.rejects s.knowledge
      (.document (call.tables.document call.request pieces.length)) = none)
    (ran : runOn (IngestCall.session s (call.tables.document call.request pieces.length))
      (call.finish pieces vectors) = some (.ok (), after)) :
    Library.Sound py ⟨after.stored, s.ingested ++ [⟨call, base,
      call.tables.document call.request pieces.length, call.tables.chunkRows call.request
        (call.tables.document call.request pieces.length) 0 pieces vectors⟩]⟩ := by
  have stored := finish_stored prepared.aligned rfl ran
  obtain ⟨fresh, _, _⟩ := rejects_none.mp accepted
  refine ⟨?_, ?_, ?_, ?_, ?_, ?_⟩
  · refine sound.serial.next (a := .ingest call) trivial ?_
    change (transact _ _).map Prod.snd = some after.stored
    rw [transact_ingest prepared accepted ran]
    rfl
  · rw [stored, List.map_append, sound.documents]
    rfl
  · rw [stored, List.flatMap_append, sound.chunks, List.flatMap_singleton]
  · rw [stored, List.map_append, List.map_singleton]
    refine List.nodup_append.mpr ⟨sound.distinct, List.nodup_singleton _, ?_⟩
    intro id member other new
    obtain ⟨document, old, rfl⟩ := List.mem_map.mp member
    rw [List.mem_singleton.mp new]
    exact fresh document old
  · intro ingestion member
    rw [stored]
    rcases List.mem_append.mp member with old | new
    · exact sound.whole ingestion old
    · rw [List.mem_singleton.mp new]
      exact prepared.whole
  · rw [stored]
    exact sound.chunkable

/-- What a statement of an ingestion keeps, and what it commits. -/
structure IngestCall.Moved (py : Builtins) (s t : Library) (others : List IngestCall)
    (call next : IngestCall) : Prop where
  sound : t.Sound py
  steady : next.Steady py t
  grows : s.Grows t
  inserts : ∀ document ∈ t.knowledge.documents, document ∈ s.knowledge.documents ∨
    call.inserted? = some document.id
  waits : ∀ id, next.inserted? = some id → ∀ other ∈ others, other.inserted? ≠ some id

theorem IngestCall.Moved.idle {others : List IngestCall} (sound : s.Sound py)
    (steady : next.Steady py s) (closed : next.inserted? = none) :
    IngestCall.Moved py s s others call next where
  sound := sound
  steady := steady
  grows := .refl s
  inserts _ member := .inl member
  waits id open' := by
    rw [closed] at open'
    contradiction

theorem IngestCall.advance_moved {others : List IngestCall} (sound : s.Sound py)
    (steady : call.Steady py s) (moved : call.advance py s others = some (t, next)) :
    IngestCall.Moved py s t others call next := by
  unfold IngestCall.advance at moved
  unfold IngestCall.Steady at steady
  cases phase : call.phase with
  | called =>
      rw [phase] at moved
      dsimp only at moved
      split at moved
      next =>
        cases moved
        exact .idle sound trivial rfl
      next base found =>
        cases moved
        exact .idle sound found rfl
  | loaded base =>
      rw [phase] at moved steady
      obtain ⟨chunks, cut, stepped⟩ := Option.map_eq_some_iff.mp moved
      dsimp only at stepped
      split at stepped
      next vectors computed =>
        cases stepped
        have prepared : call.Prepared py s base (chunks.map String.ofList) vectors :=
          ⟨steady, ⟨chunks, cut, rfl⟩, computed⟩
        exact .idle sound (prepared.goto _) rfl
      next =>
        cases stepped
        exact .idle sound trivial rfl
  | embedded base pieces vectors =>
      rw [phase] at moved steady
      dsimp only at moved
      split at moved
      next => contradiction
      next free =>
        split at moved
        next accepted =>
          cases moved
          have clean : call.tables.rejects s.knowledge
              (.document (call.tables.document call.request pieces.length)) = none := by
            unfold KnowledgeTables.insert at accepted
            split at accepted
            next => contradiction
            next clean => exact clean
          refine ⟨sound, ⟨steady.goto _, clean⟩, .refl s, fun _ member => .inl member, ?_⟩
          rintro _ ⟨⟩ other member same
          exact free (List.any_eq_true.mpr ⟨other, member, decide_eq_true same⟩)
        next =>
          cases moved
          exact .idle sound trivial rfl
  | flushed base pieces vectors =>
      rw [phase] at moved steady
      obtain ⟨prepared, accepted⟩ := steady
      obtain ⟨⟨result, after⟩, ran, stepped⟩ := Option.map_eq_some_iff.mp moved
      dsimp only at stepped
      split at stepped
      next =>
        cases stepped
        have stored := finish_stored prepared.aligned rfl ran
        refine ⟨sound.commit prepared accepted ran, ?_, ⟨?_, ?_, List.prefix_append _ _⟩, ?_,
          fun id open' => by contradiction⟩
        · exact ⟨_, List.mem_append_right _ (List.mem_singleton_self _), rfl, rfl⟩
        · rw [stored]
          exact fun _ _ found => found
        · rw [stored]
          exact List.prefix_append _ _
        · intro document member
          rw [stored] at member
          refine (List.mem_append.mp member).imp_right fun new => ?_
          rw [List.mem_singleton.mp new, IngestCall.inserted?, phase]
          rfl
      next =>
        cases stepped
        exact .idle sound trivial rfl
  | committed document =>
      rw [phase] at moved steady
      dsimp only at moved
      split at moved
      next row found =>
        cases moved
        refine .idle sound ?_ rfl
        obtain ⟨ingestion, member, rfl, same⟩ := steady
        have stored : ingestion.document ∈ s.knowledge.documents := by
          rw [sound.documents]
          exact List.mem_map_of_mem member
        have own : row.id = ingestion.document.id := by simpa using List.find?_some found
        have loaded := List.inj_on_of_nodup_map sound.distinct (List.mem_of_find?_eq_some found)
          stored own
        exact ⟨ingestion, member, loaded.symm, same⟩
      next =>
        cases moved
        exact .idle sound trivial rfl
  | returned document => rw [phase] at moved; contradiction
  | raised error => rw [phase] at moved; contradiction

theorem RetrieveCall.advance_steady {call next : RetrieveCall} (ordered : index.Ordered)
    (steady : call.Steady py index s) (moved : call.advance py index s = some next) :
    next.Steady py index s := by
  unfold RetrieveCall.advance at moved
  unfold RetrieveCall.Steady at steady
  cases phase : call.phase with
  | called =>
      rw [phase] at moved
      dsimp only at moved
      split at moved
      next =>
        cases moved
        trivial
      next allowed =>
        split at moved
        next =>
          cases moved
          trivial
        next base stored =>
          cases moved
          have inScope : call.scope.isAllowed py call.knowledgeBaseId = true := by
            simpa using allowed
          exact ⟨inScope, stored⟩
  | loaded base =>
      rw [phase] at moved steady
      dsimp only at moved
      split at moved
      next vectors computed =>
        cases moved
        obtain ⟨row, replied, rfl⟩ := computeEmbeddings_single computed
        exact ⟨steady.1, base, row, steady.2, replied, rfl⟩
      next =>
        cases moved
        trivial
  | embedded vector =>
      rw [phase] at moved steady
      cases moved
      exact ⟨steady.1, ordered.rows _ _ _, ordered.limited _ _ _, vector, steady.2,
        ordered.ordered _ _ _⟩
  | answered | failed | raised =>
      rw [phase] at moved
      contradiction

theorem Ingestion.Whole.mono {bases later : Table KnowledgeBaseRow} {ingestion : Ingestion}
    (whole : ingestion.Whole bases)
    (kept : ∀ id base, bases.find? id = some base → later.find? id = some base) :
    ingestion.Whole later :=
  ⟨kept _ _ whole.stored, whole.document, whole.owned, whole.pieces⟩

/-- A new knowledge base has a new id, and its overlap is smaller than its chunks. -/
theorem Library.Sound.create (sound : s.Sound py) {newId : String} {request : KnowledgeBaseCreate}
    {knowledge : Knowledge} (created : s.knowledge.create newId request = some knowledge) :
    Library.Sound py { s with knowledge } ∧ s.Grows { s with knowledge } ∧
      knowledge.documents = s.knowledge.documents := by
  have serial : Reachable (knowledgeStore py) anyStep knowledge :=
    sound.serial.next (a := .create newId request) trivial created
  unfold Knowledge.create at created
  split at created
  next base checked free =>
    cases created
    have visible (id : String) : (s.knowledge.bases.insert base).find? id =
        (s.knowledge.bases.find? id).or (if key base = id then some base else none) :=
      Table.find?_insert _ _ _
    have kept (id : String) (other : KnowledgeBaseRow)
        (found : s.knowledge.bases.find? id = some other) :
        (s.knowledge.bases.insert base).find? id = some other := by
      rw [visible, found, Option.some_or]
    refine ⟨⟨serial, sound.documents, sound.chunks, sound.distinct,
      fun ingestion member => (sound.whole ingestion member).mono kept, ?_⟩,
      ⟨kept, List.prefix_rfl, List.prefix_rfl⟩, rfl⟩
    intro id other found
    change (s.knowledge.bases.insert base).find? id = some other at found
    rw [visible, Option.or_eq_some_iff] at found
    rcases found with old | ⟨_, new⟩
    · exact sound.chunkable id other old
    · split at new
      next =>
        cases new
        exact createKnowledgeBase_chunkable checked
      next => contradiction
  next => contradiction

theorem KnowledgeCall.Steady.undisturbed {call : KnowledgeCall} (steady : call.Steady py index s)
    (grows : s.Grows t) (apart : ∀ own, call.ingest? = some own →
      ∀ document ∈ t.knowledge.documents, document ∈ s.knowledge.documents ∨
        own.inserted? ≠ some document.id) : call.Steady py index t := by
  cases call with
  | ingest call => exact IngestCall.Steady.undisturbed steady grows (apart call rfl)
  | retrieve call => exact RetrieveCall.Steady.undisturbed steady grows

theorem librarians_sound (py : Builtins) (ordered : index.Ordered) :
    (librarians py index).Sound (Library.Sound py) (KnowledgeCall.Steady py index)
      KnowledgeCall.Apart where
  symm apart := fun x y own other id first second => apart y x other own id second first
  init s first := by
    cases first
    refine ⟨.start rfl, rfl, rfl, List.nodup_nil, fun ingestion member => ?_, ?_⟩
    · contradiction
    · intro id base found
      rw [Table.find?_empty] at found
      contradiction
  fresh s call sound fresh := by
    cases call with
    | ingest call =>
        simp only [librarians, KnowledgeCall.fresh] at fresh
        split at fresh
        next called =>
          refine ⟨?_, ?_⟩
          · simp only [KnowledgeCall.Steady, IngestCall.Steady, called]
          · rintro other x y ⟨⟩ _ id inserted
            rw [IngestCall.inserted?, called] at inserted
            contradiction
        next => contradiction
    | retrieve call =>
        simp only [librarians, KnowledgeCall.fresh] at fresh
        split at fresh
        next called =>
          refine ⟨?_, ?_⟩
          · simp only [KnowledgeCall.Steady, RetrieveCall.Steady, called]
          · rintro other x y ⟨⟩
        next => contradiction
  advance choice s others call t next sound steady compatible moved := by
    cases call with
    | ingest call =>
        cases choice with
        | next =>
            obtain ⟨⟨t, after⟩, stepped, same⟩ := Option.map_eq_some_iff.mp moved
            cases same
            have moved := IngestCall.advance_moved sound steady stepped
            refine ⟨moved.sound, moved.steady, fun other member => ?_⟩
            obtain ⟨kept, apart⟩ := compatible other member
            refine ⟨kept.undisturbed moved.grows fun own same document stored => ?_, ?_⟩
            · refine (moved.inserts document stored).imp_right fun mine => ?_
              exact apart call own rfl same document.id mine
            · rintro x y ⟨⟩ own id inserted
              exact moved.waits id inserted y (List.mem_filterMap.mpr ⟨other, member, own⟩)
        | abort =>
            simp only [librarians, KnowledgeCall.advance] at moved
            split at moved
            next => contradiction
            next =>
              cases moved
              refine ⟨sound, trivial, fun other member => ⟨(compatible other member).1, ?_⟩⟩
              rintro x y ⟨⟩ _ id inserted
              contradiction
    | retrieve call =>
        cases choice with
        | next =>
            obtain ⟨after, stepped, same⟩ := Option.map_eq_some_iff.mp moved
            cases same
            refine ⟨sound, RetrieveCall.advance_steady ordered steady stepped,
              fun other member => ⟨(compatible other member).1, ?_⟩⟩
            rintro x y ⟨⟩
        | abort =>
            simp only [librarians, KnowledgeCall.advance] at moved
            split at moved
            next => contradiction
            next =>
              cases moved
              refine ⟨sound, trivial, fun other member => ⟨(compatible other member).1, ?_⟩⟩
              rintro x y ⟨⟩
  around event s calls t sound steady moved := by
    obtain ⟨knowledge, created, rfl⟩ := Option.map_eq_some_iff.mp moved
    obtain ⟨kept, grows, same⟩ := sound.create created
    refine ⟨kept, fun call member => (steady call member).undisturbed grows ?_⟩
    intro own _ document stored
    exact .inl (same ▸ stored)

/-- Whatever requests run at a time, what is committed is what the requests in some order leave.
A document has the pieces of the text it was ingested with, all of them and no others, every chunk
is one of these, and a retrieval finds some chunks of its own knowledge base, within its limit and
in order of their distance to the vector of the query. -/
theorem knowledge_stays_whole (py : Builtins) (ordered : index.Ordered)
    {s : Calls Library KnowledgeCall}
    (reached : Reachable (librarians py index).machine anyStep s) :
    Reachable (knowledgeStore py) anyStep s.shared.knowledge ∧
      s.shared.knowledge.documents = s.shared.ingested.map Ingestion.document ∧
      (∀ ingestion ∈ s.shared.ingested, ingestion.Whole s.shared.knowledge.bases ∧
        s.shared.knowledge.chunksOf ingestion.document = ingestion.chunks) ∧
      (∀ chunk ∈ s.shared.knowledge.chunks, ∃ ingestion ∈ s.shared.ingested,
        chunk ∈ ingestion.chunks) ∧
      (∀ call, .ingest call ∈ s.calls → ∀ document, call.phase = .returned document →
        ∃ ingestion ∈ s.shared.ingested, ingestion.document = document ∧
          ingestion.call.request = call.request) ∧
      ∀ call, .retrieve call ∈ s.calls → ∀ rows, call.phase = .answered rows →
        call.scope.isAllowed py call.knowledgeBaseId = true ∧ rows.length ≤ call.limit ∧
          (∃ vector, call.Embeds s.shared vector ∧ rows.Pairwise fun a b =>
            index.distance vector a.embedding ≤ index.distance vector b.embedding) ∧
          ∀ row ∈ rows, ∃ ingestion ∈ s.shared.ingested, row ∈ ingestion.chunks ∧
            ingestion.call.request.knowledgeBaseId = call.knowledgeBaseId := by
  have holds := (librarians_sound py ordered).reachable reached
  have sound := holds.shared
  have logged (chunk : ChunkRow) (stored : chunk ∈ s.shared.knowledge.chunks) :
      ∃ ingestion ∈ s.shared.ingested, chunk ∈ ingestion.chunks := by
    rw [sound.chunks] at stored
    exact List.mem_flatMap.mp stored
  refine ⟨sound.serial, sound.documents, fun ingestion member => ⟨sound.whole ingestion member, ?_⟩,
    logged, fun call member document returned => ?_, fun call member rows answered => ?_⟩
  · have distinct := sound.distinct
    rw [sound.documents, List.map_map] at distinct
    rw [Knowledge.chunksOf, sound.chunks]
    exact filter_flatMap_group (DocumentRow.id ∘ Ingestion.document) distinct
      (fun other among chunk own => ((sound.whole other among).owned chunk own).1) member
  · have steady := holds.each _ member
    simpa only [KnowledgeCall.Steady, IngestCall.Steady, returned] using steady
  · have steady := holds.each _ member
    simp only [KnowledgeCall.Steady, RetrieveCall.Steady, answered] at steady
    obtain ⟨allowed, found⟩ := steady
    refine ⟨allowed, found.limited, found.ordered, fun row inside => ?_⟩
    obtain ⟨stored, own⟩ := List.mem_filter.mp (found.stored.subset inside)
    obtain ⟨ingestion, among, written⟩ := logged row stored
    refine ⟨ingestion, among, written, ?_⟩
    have whole := sound.whole ingestion among
    rw [decide_eq_true_eq, (whole.owned row written).2, whole.document] at own
    exact own

end Rule

section Sample

/-- Two ingestions and a search of one knowledge base. -/
def guideIngest (id content : String) : IngestCall where
  gateway := reversingGateway
  numbered := reversingGateway_numbered
  request := { knowledgeBaseId := "kb", filename := "guide", content }
  newId n := id ++ n.repr
  faults _ := none

def guideRequests : List (PoolMove KnowledgeCall KnowledgeChoice (String × KnowledgeBaseCreate)) :=
  [.around ("kb", { name := "guides", sizeBounds := by decide, overlapBounds := by decide }),
    .call (.ingest (guideIngest "a" "read me")), .call (.ingest (guideIngest "b" "and me")),
    .call (.retrieve
      { gateway := reversingGateway, knowledgeBaseId := "kb", query := "me", topK := 0 })] ++
    [0, 1, 2, 0, 1, 2, 0, 1, 1, 2, 0, 0, 1].map fun position => .advance position .next

/-- The rows as they are stored. -/
def plainIndex : VectorIndex where
  distance _ _ := 0
  scan stored _ limit := stored.take limit

theorem plainIndex_ordered : plainIndex.Ordered where
  rows stored _ limit := (List.take_sublist limit stored).subperm
  ordered _ _ _ := List.pairwise_of_forall fun _ _ => Rat.le_refl
  limited _ _ limit := List.length_take_le limit _

def KnowledgeCall.found : KnowledgeCall → List String
  | .retrieve { phase := .answered rows, .. } => rows.map ChunkRow.content
  | _ => []

/-- The second text is committed first, and the search finds it. -/
theorem committed_document_found : ∃ s : Calls Library KnowledgeCall,
    Reachable (librarians .onEmpty plainIndex).machine anyStep s ∧
    s.shared.knowledge.documents.map DocumentRow.id = ["b0", "a0"] ∧
      s.calls.flatMap KnowledgeCall.found = ["and me"] ∧
      Reachable (knowledgeStore .onEmpty) anyStep s.shared.knowledge := by
  obtain ⟨s, run, stored, found⟩ := Run.of_test (M := (librarians .onEmpty plainIndex).machine)
    ⟨⟨⟨.empty, [], []⟩, []⟩, []⟩ guideRequests
    (fun s => s.shared.knowledge.documents.map DocumentRow.id = ["b0", "a0"] ∧
      s.calls.flatMap KnowledgeCall.found = ["and me"]) (by decide +kernel)
  have reached : Reachable (librarians .onEmpty plainIndex).machine anyStep s :=
    ⟨⟨⟨⟨.empty, [], []⟩, []⟩, []⟩, guideRequests, ⟨rfl, rfl⟩, run⟩
  exact ⟨s, reached, stored, found, (knowledge_stays_whole .onEmpty plainIndex_ordered reached).1⟩

end Sample
end AgentRuntime
