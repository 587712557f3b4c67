import GlobalMailSystem.RefreshedSnapshot
import GlobalMailSystem.PublishedDelivered

/-!
The publishers and relay workers together with player servers that poll and consume events. The
calls of a player server are taken as a whole, those of publishers and workers command by command.
-/

namespace GlobalMailSystem.Visibility

structure World (n : Nat) where
  relay : Relay.World
  clock : Time
  snapshots : Fin n → CacheSnapshot

variable {n : Nat}

def World.mails (w : World n) : Table GlobalMail.id := w.relay.store.db.mails

def World.outbox (w : World n) : OutboxTable := w.relay.store.db.outbox

def World.cache (w : World n) : SharedCache := w.relay.store.cache

inductive Label (n : Nat)
  | relay (l : Relay.Label)
  | tick (elapsed : Nat)
  | poll (k : Fin n) (token : Int)
  | handle (k : Fin n) (event : GlobalMailChangedEvent) (token : Int)

def accepted (log : List Relay.Effect) (event : GlobalMailChangedEvent) : Bool :=
  log.any fun
    | .accepted _ _ e => e = event
    | _ => false

def World.serve (w : World n) (k : Fin n) (r : SharedCache × CacheSnapshot) : World n :=
  { w with
    relay := { w.relay with store := { w.relay.store with cache := r.1 } }
    snapshots := Function.update w.snapshots k r.2 }

def step (sha256 : PublishPayload → String) (config : Nat → Relay.Config) (w : World n) :
    Label n → Option (World n)
  | .relay l => (Relay.step sha256 config w.relay l).map fun relay => { w with relay }
  | .tick elapsed => some { w with clock := w.clock + elapsed }
  | .poll k token =>
    some (w.serve k (LocalCache.refreshIfStale w.mails w.cache (w.snapshots k) w.clock token))
  | .handle k event token =>
    if accepted w.relay.store.log event then
      some (w.serve k (EventConsumer.handle w.mails w.cache (w.snapshots k) event w.clock token))
    else none

def init (n start : Nat) : World n := ⟨Relay.init, start, fun _ => .new 0 zeroTime⟩

end GlobalMailSystem.Visibility
