import Rejoin.Queue.Basic

/-!
# Finding a token without an index

The first pending item that carries the token, or else the first running one (`Queue.scan`).
-/

namespace Rejoin

/-- The first item of two lists that carries a token. -/
def scanFor (pending running : List Item) (token : String) : Option Item :=
  (pending ++ running).find? (·.carries token)

theorem scanFor_eq (pending running : List Item) (token : String) :
    scanFor pending running token =
      (pending.find? (·.carries token)).or (running.find? (·.carries token)) := List.find?_append

/-- What a search through the lists of a queue finds for a token. -/
def Queue.scan (q : Queue) (token : String) : Option Item := scanFor q.pending q.running token

end Rejoin
