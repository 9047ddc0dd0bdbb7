import SeismicIngest.Model.Routes
import Mathlib.Logic.Relation

/-! # The service as a transition system

A call is a request together with what it draws from its environment.  Serving it
runs its program on the committed data; a store is reachable when some finite
sequence of calls, refused ones included, leads to it from the empty database.
-/

namespace SeismicIngest

open Transaction

inductive Request where
  | createSession (totalBytes : Nat) (wholeSha256 : String)
  | putChunk (sessionId : String) (start declaredLength : Int) (chunkDigest : String)
      (payload : Bytes)
  | compactSealed (sessionId : String) (targetChunkBytes : Int)
  | createComparison (baselineSessionId candidateSessionId : String)
  | getSession (sessionId : String)
  | listSessions (scan : ScanOrder) (status : Option String) (limit offset : Int)
  | listChunks (sessionId : String)
  | getAuditTrail (sessionId : String)
  | downloadContent (sessionId : String) (rangeValues : List String)
  | getComparison (comparisonId : String)

inductive Reply where
  | session (row : UploadSession)
  | ack (body : Ack)
  | compacted (body : CompactResult)
  | comparison (record : Comparison)
  | described (body : SessionResponse)
  | listed (body : List SessionResponse)
  | checkpoints (body : ChunkListing)
  | trail (events : List AuditEvent)
  | content (body : Download)
deriving DecidableEq

structure Call where
  env : Env
  request : Request

section

variable (H : Bytes → String)

def Call.program (call : Call) : Db Reply :=
  match call.request with
  | .createSession totalBytes wholeSha256 =>
    .session <$> createSession H call.env totalBytes wholeSha256
  | .putChunk sessionId start declaredLength chunkDigest payload =>
    .ack <$> putChunk H call.env sessionId start declaredLength chunkDigest payload
  | .compactSealed sessionId targetChunkBytes =>
    .compacted <$> compactSealed H call.env sessionId targetChunkBytes
  | .createComparison baselineSessionId candidateSessionId =>
    .comparison <$> createComparison H call.env baselineSessionId candidateSessionId
  | .getSession sessionId => .described <$> getSession sessionId
  | .listSessions scan status limit offset => .listed <$> listSessions scan status limit offset
  | .listChunks sessionId => .checkpoints <$> listChunks sessionId
  | .getAuditTrail sessionId => .trail <$> getAuditTrail sessionId
  | .downloadContent sessionId rangeValues => .content <$> downloadContent H sessionId rangeValues
  | .getComparison comparisonId => .comparison <$> getComparison comparisonId

/-- The answer of one call and the store it leaves. -/
def Call.serve (call : Call) (db : Store) : Except Raised Reply × Store :=
  (call.program H).run db

/-- The store after a sequence of calls. -/
def serveAll (calls : List Call) (db : Store) : Store :=
  calls.foldl (fun data call => (call.serve H data).2) db

/-- One call, whatever it answers. -/
def Step (before after : Store) : Prop :=
  ∃ call : Call, (call.serve H before).2 = after

/-- `after` comes from `before` by some sequence of calls. -/
def Later (before after : Store) : Prop :=
  Relation.ReflTransGen (Step H) before after

def Reachable (db : Store) : Prop :=
  Later H Store.empty db

theorem Reachable.serve {H : Bytes → String} {db : Store} (reachable : Reachable H db) (call : Call) :
    Reachable H (call.serve H db).2 :=
  reachable.tail ⟨call, rfl⟩

theorem Later.serveAll (H : Bytes → String) (calls : List Call) (db : Store) :
    Later H db (serveAll H calls db) := by
  induction calls generalizing db with
  | nil => exact .refl
  | cons call calls inductionHypothesis => exact .head ⟨call, rfl⟩ (inductionHypothesis _)

theorem serveAll_append (H : Bytes → String) (first second : List Call) (db : Store) :
    serveAll H (first ++ second) db = serveAll H second (serveAll H first db) :=
  List.foldl_append

/-- What a sequence of calls leaves of the empty database is reachable. -/
theorem reachable_serveAll (H : Bytes → String) (calls : List Call) :
    Reachable H (serveAll H calls Store.empty) :=
  Later.serveAll H calls Store.empty

theorem Reachable.later {H : Bytes → String} {before after : Store} (reachable : Reachable H before)
    (later : Later H before after) : Reachable H after :=
  reachable.trans later

end

end SeismicIngest
