import ChainPeer.Node

/-!
# Requests for blocks and their responses

Requests of peers are answered if the other subsystems have an answer. A response counts only if
a request with its id is still to be answered, and the first one takes the request out.
-/

namespace ChainPeer.Site

variable {σ : Type} (w : World σ)

/-- Handles a request of a peer. One that is refused is not answered. -/
def onRequest (p : PeerId) (r : BlockRequest) (s : Site σ) : Except HandlerError Unit × Site σ :=
  match w.serve r s.world with
  | (.ok response, world) => ({ s with world } : Site σ).send w p (.response response)
  | (.error _, world) => (.ok (), { s with world })

def onResponse (p : PeerId) (r : BlockResponse) (s : Site σ) :
    Except HandlerError Unit × Site σ :=
  match s.node.requests.remove r.id with
  | (false, _) =>
    (.ok (), s.update (·.count fun m =>
      { m with unsolicitedResponses := m.unsolicitedResponses + 1 }))
  | (true, requests) =>
    let s := s.update ({ · with requests })
    let (request, world) := w.answered p r s.world
    ({ s with world } : Site σ).followUp w p request

end ChainPeer.Site
