import Exg.Gateway.Identifiers
import Exg.Server.Exchange
import Exg.Server.SymbolConfig

/-!
# The handlers and the server

The tasks that serve requests and the threads of the server, in any interleaving.  What the
handlers bring to the ring meets the premise under which the server serves its commands, so the
whole process needs no premise about commands: from the requests on, every command that is
answered with 200 is handled once, and no two carry the same identifier.
-/

namespace Exg

open Support Gateway SnowflakeGen

/-- What is fixed while the process runs. -/
structure SiteSetup where
  gateway : GatewayConfig
  gen : SnowflakeGen
  server : ServerSetup

/-- The whole process. -/
structure Site (Task : Type) where
  app : AppState Task
  server : Server
  /-- The task that holds the producer's lock, and what it is about to answer. -/
  holder : Option (Task × Ack)

/-- A step of a task, or of a thread of the server. -/
inductive SiteInput (Task : Type) where
  | begin (task : Task) (request : Request)
  | claim (task : Task) (available : Bool)
  | clock (task : Task) (nowMs : UInt64)
  | convert (task : Task) (ts : UnixMicros)
  | store (task : Task) (available : Bool)
  | send (task : Task)
  | produce
  | work (now : UnixMicros) (order : IterationOrder)
  | shutdown

inductive SiteEvent (Task : Type) where
  | app (event : AppEvent Task)
  | server (event : ServerEvent)

namespace Site

variable {Task : Type} [DecidableEq Task] (setup : SiteSetup) (site : Site Task)

/-- A step of the tasks alone. -/
def onApp (stepped : AppState Task × List (AppEvent Task)) : Site Task × List (SiteEvent Task) :=
  ({ site with app := stepped.1 }, stepped.2.map .app)

/-- A step of the server alone. -/
def onServer (stepped : Server × List ServerEvent) : Site Task × List (SiteEvent Task) :=
  ({ site with server := stepped.1 }, stepped.2.map .server)

/-- A task takes the lock, when it is free, and calls `try_push`. -/
def send (task : Task) : Site Task × List (SiteEvent Task) :=
  match site.app.point task with
  | .sending command ack =>
      if site.server.pushing = none ∧ site.server.shutdown.admits command then
        let enqueued := site.server.enqueue setup.server command
        let app := site.app.move task .pushing
        match enqueued.2 with
        | .refused _ error :: _ =>
            let replied := app.reply task (.error error)
            (⟨replied.1, enqueued.1, none⟩, enqueued.2.map .server ++ replied.2.map .app)
        | _ => (⟨app, enqueued.1, some (task, ack)⟩, enqueued.2.map .server)
      else (site, [])
  | _ => (site, [])

/-- The next step of the `try_push` in progress, and the answer when it is the last one. -/
def produce : Site Task × List (SiteEvent Task) :=
  match site.holder with
  | none => (site, [])
  | some (task, ack) =>
      let produced := site.server.produce setup.server
      match produced.2 with
      | .accepted _ :: _ =>
          let replied := site.app.reply task (.ok ack)
          (⟨replied.1, produced.1, none⟩, produced.2.map .server ++ replied.2.map .app)
      | .refused _ error :: _ =>
          let replied := site.app.reply task (.error error)
          (⟨replied.1, produced.1, none⟩, produced.2.map .server ++ replied.2.map .app)
      | _ => ({ site with server := produced.1 }, produced.2.map .server)

def step (input : SiteInput Task) : Site Task × List (SiteEvent Task) :=
  match input with
  | .begin task request => site.onApp (site.app.begin setup.gateway task request)
  | .claim task available => site.onApp (site.app.claim setup.gateway task available)
  | .clock task nowMs => site.onApp (site.app.clock setup.gateway setup.gen task nowMs)
  | .convert task ts => site.onApp (site.app.convert task ts)
  | .store task available => site.onApp (site.app.store task available)
  | .send task => site.send setup task
  | .produce => site.produce setup
  | .work now order => site.onServer (site.server.work setup.server now order)
  | .shutdown => site.onServer (site.server.shutDown, [])

/-- A process whose server has booted, with the tables of the database as it finds them. -/
def launch (server : Server) (clientOrders : List ClientOrderRow) (users : List (String × Int64)) :
    Site Task where
  app := {
    clientOrders, users
    snowflake := .start 0
    adminCreditSeq := 0
    point := fun _ => .idle }
  server
  holder := none

end Site

/-! ## Views of a log -/

section Views

variable {Task : Type}

def appEvents (log : List (SiteEvent Task)) : List (AppEvent Task) :=
  log.filterMap fun
    | .app event => some event
    | .server _ => none

def serverEvents (log : List (SiteEvent Task)) : List ServerEvent :=
  log.filterMap fun
    | .server event => some event
    | .app _ => none

theorem appEvents_append (before after : List (SiteEvent Task)) :
    appEvents (before ++ after) = appEvents before ++ appEvents after := List.filterMap_append

theorem serverEvents_append (before after : List (SiteEvent Task)) :
    serverEvents (before ++ after) = serverEvents before ++ serverEvents after :=
  List.filterMap_append

@[simp] theorem appEvents_app (events : List (AppEvent Task)) :
    appEvents (events.map .app) = events := by
  rw [appEvents, List.filterMap_map]
  exact List.filterMap_some

@[simp] theorem appEvents_server (events : List ServerEvent) :
    appEvents (events.map .server : List (SiteEvent Task)) = [] := by
  rw [appEvents, List.filterMap_map]
  exact List.filterMap_eq_nil_iff.2 fun _ _ => rfl

@[simp] theorem serverEvents_server (events : List ServerEvent) :
    serverEvents (events.map .server : List (SiteEvent Task)) = events := by
  rw [serverEvents, List.filterMap_map]
  exact List.filterMap_some

@[simp] theorem serverEvents_app (events : List (AppEvent Task)) :
    serverEvents (events.map .app) = [] := by
  rw [serverEvents, List.filterMap_map]
  exact List.filterMap_eq_nil_iff.2 fun _ _ => rfl

end Views

/-! ## What the steps of the server leave alone -/

namespace Server

variable (setup : ServerSetup) (server : Server)

/-- A free lock is taken with the command, or the command is refused at once. -/
theorem enqueue_cases {command : Command}
    (free : server.pushing = none ∧ server.shutdown.admits command) :
    (∃ error, (server.enqueue setup command).2 = [.refused command error] ∧
        (server.enqueue setup command).1.pushing = none) ∨
      (server.enqueue setup command).2 = [] ∧
        (server.enqueue setup command).1.pushing = some command := by
  rw [enqueue, if_pos free]
  dsimp only
  split
  · exact Or.inl ⟨_, rfl, free.1⟩
  · exact Or.inr ⟨rfl, rfl⟩

/-- The call in progress goes on, or ends with its command accepted or refused. -/
theorem produce_calls {command : Command} (pushing : server.pushing = some command) :
    (server.produce setup).2 = [] ∧ (server.produce setup).1.pushing = some command ∨
      (server.produce setup).1.pushing = none ∧
        ((server.produce setup).2 = [.accepted command] ∨
          ∃ error, (server.produce setup).2 = [.refused command error]) := by
  rw [produce, pushing]
  dsimp only
  split
  · exact Or.inr ⟨rfl, Or.inl rfl⟩
  · exact Or.inr ⟨rfl, Or.inr ⟨_, rfl⟩⟩
  · exact Or.inl ⟨rfl, rfl⟩

end Server
end Exg
