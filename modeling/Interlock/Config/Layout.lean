import Interlock.Config.Basic
import Interlock.Config.Codec
import Interlock.Toml.Reader
import Interlock.Toml.Writer

/-!
The configuration as a TOML document: the keys of its parts, reading and printing.
-/

set_option autoImplicit false

namespace Interlock

namespace Config

open Interlock.Toml (Tree Table)

def applicationShape : Shape Application where
  start := .standard
  required := 0
  fields := [
    Codec.text.field "name" (·.name) fun name part => { part with name := name },
    Codec.text.field "log_level" (·.logLevel) fun level part => { part with logLevel := level }
  ]

def schedulerShape : Shape Scheduler where
  start := .standard
  required := 0
  fields := [
    Codec.count.field "poll_interval_ms" (·.pollInterval) fun n part => { part with pollInterval := n },
    Codec.flag.field "verbose" (·.verbose) fun b part => { part with verbose := b }
  ]

def deviceShape : Shape Device where
  start := ⟨"", "tick", 1000, []⟩
  required := 1
  fields := [
    Codec.text.field "name" (·.name) fun name part => { part with name := name },
    Codec.text.field "driver" (·.driver) fun driver part => { part with driver := driver },
    Codec.count.field "interval_ms" (·.interval) fun n part => { part with interval := n },
    Codec.text.list.field "channels" (·.channels) fun names part => { part with channels := names }
  ]

def channelShape : Shape Channel where
  start := ⟨"", none, true⟩
  required := 1
  fields := [
    Codec.text.field "path" (·.path) fun path part => { part with path := path },
    Codec.text.optional.field "initial" (·.initial) fun text part => { part with initial := text },
    Codec.flag.field "active" (·.active) fun b part => { part with active := b }
  ]

def variableShape : Shape Variable where
  start := ⟨"", "", none⟩
  required := 2
  fields := [
    Codec.text.field "name" (·.name) fun name part => { part with name := name },
    Codec.text.field "initial" (·.initial) fun text part => { part with initial := text },
    Codec.text.optional.field "channel" (·.channel) fun path part => { part with channel := path }
  ]

def stepShape : Shape Step where
  start := ⟨none, none, none⟩
  required := 0
  fields := [
    Codec.text.optional.field "Action" (·.action) fun text part => { part with action := text },
    Codec.text.optional.field "Trigger" (·.trigger) fun text part => { part with trigger := text },
    Codec.text.optional.field "Description" (·.description) fun text part =>
      { part with description := text }
  ]

def sequenceShape : Shape Sequence where
  start := ⟨"", []⟩
  required := 1
  fields := [
    Codec.text.field "Name" (·.name) fun name part => { part with name := name },
    stepShape.codec.list.field "Step" (·.steps) fun steps part => { part with steps := steps }
  ]

def procedureShape : Shape Procedure where
  start := ⟨"", false, false, []⟩
  required := 1
  fields := [
    Codec.text.field "Active" (·.active) fun name part => { part with active := name },
    Codec.flag.field "AutoStart" (·.autoStart) fun b part => { part with autoStart := b },
    Codec.flag.field "AutoExit" (·.autoExit) fun b part => { part with autoExit := b },
    sequenceShape.codec.list.field "Sequence" (·.sequences) fun sequences part =>
      { part with sequences := sequences }
  ]

def shape : Shape Config where
  start := .standard
  required := 0
  fields := [
    applicationShape.codec.field "application" (·.application) fun part config =>
      { config with application := part },
    schedulerShape.codec.field "scheduler" (·.scheduler) fun part config =>
      { config with scheduler := part },
    deviceShape.codec.list.field "devices" (·.devices) fun parts config =>
      { config with devices := parts },
    channelShape.codec.list.field "channels" (·.channels) fun parts config =>
      { config with channels := parts },
    variableShape.codec.list.field "variables" (·.vars) fun parts config =>
      { config with vars := parts },
    procedureShape.codec.optional.field "procedure" (·.procedure) fun part config =>
      { config with procedure := part }
  ]

def ofTable (table : Table) : Except Refusal Config := shape.readTable table

def toTable (config : Config) : Table := shape.table config

def read (document : String) : Except Refusal Config :=
  match Toml.read document with
  | some table => ofTable table
  | none => .error .unreadable

def isPrintable (config : Config) : Bool :=
  Toml.fits config.scheduler.pollInterval &&
    config.devices.all fun device => Toml.fits device.interval

-- What is said of a configuration that has no document.
def unprintable : String := "out-of-range value for u64 type"

def print? (config : Config) : Option String :=
  if config.isPrintable then some (Toml.write config.toTable) else none

end Config

end Interlock
