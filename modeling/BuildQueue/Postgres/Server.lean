import BuildQueue.Postgres.Statement

/-!
# Scripted servers

A scripted server answers statements from a list, in order, and keeps what it was asked. When the
list is used up every statement has no rows. Statements that are only acknowledged take nothing
from the list. On a closed pool every statement fails.
-/

namespace BuildQueue.Postgres

/-- Answers still to give, and the statements received, last one first. -/
structure Server where
  answers : List Answer
  received : List Statement

namespace Server

def ofAnswers (answers : List Answer) : Server := ⟨answers, []⟩

/-- The statements received, in order. -/
def log (server : Server) : List Statement := server.received.reverse

def execute (s : Statement) (server : Server) : Answer × Server :=
  let received := s :: server.received
  if s.isAnswered then
    match server.answers with
    | [] => (.ok [], ⟨[], received⟩)
    | answer :: answers => (answer, ⟨answers, received⟩)
  else (.ok [], ⟨server.answers, received⟩)

end Server

/-- The answer to every statement on a closed pool. -/
def closedPool : Answer := .error .poolClosed

end BuildQueue.Postgres
