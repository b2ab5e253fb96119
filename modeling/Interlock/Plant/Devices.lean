import Interlock.Plant.Channels

/-!
Devices at work: a poll writes a reading to every channel. The task of an active device polls in its
first turn and then every interval.
-/

set_option autoImplicit false

namespace Interlock.Plant

def deviceDetail (device : Device) : String × Json.Tree := ("device", .text device.name)

def attached? (plant : Plant) (device : Device) (logical : String) : Option ChannelId :=
  device.channels.find? fun id =>
    (plant.channels[id]?).any fun channel => sameLogical channel.logical logical

def attach (plant : Plant) (id : DeviceId) (channel : ChannelId) : Bool × Plant :=
  match plant.devices[id]?, plant.channels[channel]? with
  | some device, some found =>
      let details := [deviceDetail device, ("channel", .text found.logical)]
      if (plant.attached? device found.logical).isSome then
        (false, plant.log .device .warn "Duplicate channel refused" details)
      else
        let plant := plant.setActive channel true
        (true,
          (plant.setDevice id { device with channels := device.channels ++ [channel] }).log .device
            .debug "Channel added" details)
  | _, _ => (false, plant)

def detach (plant : Plant) (id : DeviceId) (logical : String) : Option ChannelId × Plant :=
  match plant.devices[id]? with
  | none => (none, plant)
  | some device =>
      match plant.attached? device logical with
      | none => (none, plant)
      | some channel =>
          (some channel,
            (plant.setDevice id { device with channels := device.channels.erase channel }).setActive
              channel false)

def registerAttached (plant : Plant) (id : DeviceId) (registry : Schedule.RegistryId) : Plant :=
  match plant.devices[id]? with
  | none => plant
  | some device =>
      device.channels.foldl
        (fun plant channel =>
          match plant.channels[channel]? with
          | none => plant
          | some found => (plant.register registry (device.path found.logical) channel).2)
        plant

def poll (plant : Plant) (id : DeviceId) : Except String Plant :=
  match plant.devices[id]? with
  | none => .ok plant
  | some device =>
      match device.driver with
      | .tick =>
          let (now, plant) := plant.readClock
          .ok (plant.push (device.channels.map fun channel => .write channel (.timestamp now)))
      | .script [] => .error "script exhausted"
      | .script (value :: rest) =>
          .ok ((plant.setDevice id { device with driver := .script rest }).push
            (device.channels.map fun channel => .write channel value))

def activateDevice (plant : Plant) (id : DeviceId) : Except Failure Plant :=
  match plant.devices[id]? with
  | none => .ok plant
  | some device =>
      if !plant.hasRuntime then
        .error (.configuration
          ("device '" ++ device.name ++ "' must be activated inside a tokio runtime"))
      else if device.active then .ok plant
      else
        let plant := (plant.setDevice id { device with active := true }).enqueue (.device id)
        .ok (plant.log .device .info "Device started"
          [deviceDetail device, ("driver", .text device.driver.name),
            ("interval_ms", .count device.interval)])

def deactivateDevice (plant : Plant) (id : DeviceId) : Plant :=
  match plant.devices[id]? with
  | none => plant
  | some device =>
      if device.active then
        let plant := (plant.setDevice id { device with active := false }).dispatch fun dispatcher =>
          dispatcher.stop (.device id)
        plant.log .device .debug "Device stopped" [deviceDetail device]
      else plant

def retireDevices (plant : Plant) : Plant :=
  plant.devices.zipIdx.foldl
    (fun plant (device, id) =>
      if device.active && !plant.deviceInUse id then plant.deactivateDevice id else plant)
    plant

-- Stops a device and lets go of its channels, which lose their subscribers.
def disposeDevice (plant : Plant) (id : DeviceId) : Plant :=
  let plant := plant.deactivateDevice id
  match plant.devices[id]? with
  | none => plant
  | some device =>
      device.channels.foldl
        (fun plant channel => (plant.setActive channel false).clearSubscribers channel)
        (plant.setDevice id { device with channels := [] })

def turnDevice (plant : Plant) (id : DeviceId) : Plant :=
  match plant.devices[id]? with
  | none => plant
  | some device =>
      let plant := plant.push [.settleDown id]
      match plant.poll id with
      | .ok plant => plant
      | .error message =>
          plant.log .device .warn "Poll failed" [deviceDetail device, ("error", .text message)]

-- Ends the turn of a device. It sleeps for its interval, unless it was stopped in its turn; one that
-- was started anew has a fresh turn to come.
def settleDown (plant : Plant) (id : DeviceId) : Plant :=
  match plant.devices[id]? with
  | none => plant
  | some device =>
      if device.active && !plant.dispatcher.isQueued (.device id) then
        plant.dispatch fun dispatcher => dispatcher.sleep (.device id) device.interval
      else plant

end Interlock.Plant
