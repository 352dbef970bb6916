namespace BlizzardMock.MockRunner

inductive RunnerLever
  | delay | dropAck | conflictingFact | unreachable | replay | staleEpoch | staleRouteToken
  | omitRouteToken
  deriving DecidableEq

def RunnerLever.value : RunnerLever → String
  | .delay => "delay"
  | .dropAck => "drop_ack"
  | .conflictingFact => "conflicting_fact"
  | .unreachable => "unreachable"
  | .replay => "replay"
  | .staleEpoch => "stale_epoch"
  | .staleRouteToken => "stale_route_token"
  | .omitRouteToken => "omit_route_token"

end BlizzardMock.MockRunner
