import PlugTaxonomy.Schema.Basic

/-!
# The reference taxonomy

The taxonomy of plug types that is used where no schema is given: ten root types, which span
switches, levels, physical quantities and encoders.
-/

namespace PlugTaxonomy.Reference

/-- Commands are accepted, and everything below is interchangeable. -/
def family : Flags := .union .command .compatible

/-- Commands are accepted, one of which toggles. -/
def switching : Flags := .union .command .toggle

/-- Commands are accepted, one of which toggles, and everything below is interchangeable. -/
def switchFamily : Flags := .union family .toggle

/-- States that are off or on. -/
def binary : TypeNode :=
  .branch ⟨"BINARY", switchFamily, "Binary", some "OFF_ON",
    "binary switch category (0: off, 1: on, 2: toggle command)"⟩ 4
    [.branch ⟨"BUTTON", .none, "Button", some "RELEASED_PRESSED",
       "button returns to inactive state when released (0: released, 1: pressed)"⟩ 2
       [.leaf ⟨"WALL", .none, "Wall Button", none, "wall mounted push button"⟩],
     .branch ⟨"SWITCH", .none, "Switch", none, "mechanical switch (0: off, 1: on)"⟩ 2
       [.leaf ⟨"WALL", .none, "Wall Switch", none, "wall mounted switch"⟩],
     .branch ⟨"POWER", .command, "Power State", none,
       "power state of a consumer (0: off, 1: on, 2: toggle command)"⟩ 4
       [.leaf ⟨"LIGHT", .command, "Light Power", none, "light on/off"⟩,
        .leaf ⟨"FREEZER", .command, "Freezer Power", none, "freezer on/off"⟩,
        .leaf ⟨"FRIDGE", .command, "Fridge Power", none, "fridge on/off"⟩,
        .leaf ⟨"AC", .command, "AC Power", none, "air conditioner on/off"⟩,
        .leaf ⟨"OVEN", .command, "Oven Power", none, "oven on/off"⟩,
        .leaf ⟨"COOKER", .command, "Cooker Power", none, "cooker on/off"⟩,
        .leaf ⟨"COFFEE", .command, "Coffee M. Power", none, "coffee machine on/off"⟩,
        .leaf ⟨"DISHWASHER", .command, "Dishwasher Power", none, "dishwasher on/off"⟩,
        .leaf ⟨"WASHING", .command, "Washing M. Power", none, "washing machine on/off"⟩,
        .leaf ⟨"HIFI", .command, "Hi-Fi Power", none, "hi-fi system on/off"⟩,
        .leaf ⟨"TV", .command, "TV Power", none, "television on/off"⟩],
     .branch ⟨"OPENING", switching, "Opening State", some "CLOSED_OPEN",
       "opening state of gate, door, window etc. (0: closed, 1: open, 2: toggle command)"⟩ 3
       [.leaf ⟨"GATE", .command, "Gate Opening", none, "gate"⟩,
        .leaf ⟨"DOOR", .command, "Door Opening", none, "door"⟩,
        .leaf ⟨"WINDOW", .command, "Window Opening", none, "window"⟩,
        .leaf ⟨"BLIND", .command, "Blind Opening", none, "blind"⟩,
        .leaf ⟨"SLAT", .command, "Slat Opening", none, "slat of venetian blind"⟩,
        .leaf ⟨"VALVE", .command, "Valve Opening", none, "valve"⟩],
     .branch ⟨"LOCK", switching, "Lock", some "LOCK",
       "lock state (0: unlocked, 1: locked, 2: toggle command)"⟩ 2
       [.leaf ⟨"GATE", .command, "Gate Lock", none, "gate lock"⟩,
        .leaf ⟨"DOOR", .command, "Door Lock", none, "door lock"⟩,
        .leaf ⟨"WINDOW", .command, "Window Lock", none, "window lock"⟩],
     .leaf ⟨"OCCUPANCY", .none, "Occupancy", some "OCCUPANCY",
       "occupancy measured by e.g. PIR sensor (0: unoccupied, 1: occupied)"⟩,
     .leaf ⟨"ALARM", .none, "Alarm", some "ACTIVATION",
       "activation of alarm (0: deactivated, 1: activated)"⟩,
     .branch ⟨"SOUND", .command, "Sound", some "SOUND",
       "sound played by a sound output (0: stop, 1: play)"⟩ 4
       [.leaf ⟨"EVENT", .command, "Event Sound", none, "generic event"⟩,
        .leaf ⟨"ACTIVATION", .command, "Activation Sound", none, "something was activated"⟩,
        .leaf ⟨"DEACTIVATION", .command, "Deactivation Sound", none, "something was deactivated"⟩,
        .leaf ⟨"INFORMATION", .command, "Information Sound", none, "information"⟩,
        .leaf ⟨"WARNING", .command, "Warning Sound", none, "warning"⟩,
        .leaf ⟨"DOORBELL", .command, "Doorbell Sound", none, "doorbell"⟩,
        .leaf ⟨"CALL", .command, "Call Sound", none, "incoming call"⟩,
        .leaf ⟨"ALARM", .command, "Alarm Sound", none, "alarm"⟩],
     .leaf ⟨"ENABLE_CLOSE", .none, "Enable Close", some "ENABLED",
       "closing of blind/lock enabled (0: disabled, 1: enabled)"⟩]

/-- States with a middle or stop position. -/
def ternary : TypeNode :=
  .branch ⟨"TERNARY", family, "Ternary", some "OFF_ON1_ON2",
    "ternary switch category (0: off, 1: on1, 2: on2)"⟩ 3
    [.branch ⟨"ROCKER", .none, "Rocker", some "RELEASED_UP_DOWN",
       "rocker returns to inactive state when released (0: released, 1: up, 2: down)"⟩ 2
       [.leaf ⟨"WALL", .none, "Wall Rocker", none, "wall mounted rocker"⟩],
     .branch ⟨"SWITCH", .none, "Switch", none,
       "mechanical switch with 3 states (0: off, 1: on1, 2: on2)"⟩ 2
       [.leaf ⟨"WALL", .none, "Wall Switch", none, "wall mounted switch with 3 states"⟩],
     .branch ⟨"OPENING", .command, "Opening Drive", some "STOPPED_OPENING_CLOSING",
       "drive of gate, door, window etc. (0: stopped, 1: opening, 2: closing)"⟩ 3
       [.leaf ⟨"GATE", .command, "Gate Drive", none, "gate drive"⟩,
        .leaf ⟨"DOOR", .command, "Door Drive", none, "door drive"⟩,
        .leaf ⟨"WINDOW", .command, "Window Drive", none, "window drive"⟩,
        .leaf ⟨"BLIND", .command, "Blind Drive", none, "blind drive"⟩,
        .leaf ⟨"SLAT", .command, "Slat Drive", none, "slat drive of venetian blind"⟩,
        .leaf ⟨"VALVE", .command, "Valve Drive", none, "valve drive"⟩],
     .branch ⟨"LOCK", .command, "Lock State", some "TILT_LOCK",
       "lock with tilt position (0: unlocked, 1: tilt, 2: locked)"⟩ 2
       [.leaf ⟨"DOOR", .command, "Door Lock", none, "door lock with tilt position"⟩,
        .leaf ⟨"WINDOW", .command, "Window Lock", none, "window lock with tilt position"⟩]]

/-- States of several steps. -/
def multistate : TypeNode :=
  .branch ⟨"MULTISTATE", .command, "Multistate", none, "multi-state category (int)"⟩ 2
    [.leaf ⟨"THERMOSTAT_MODE", .command, "Mode", none,
       "thermostat mode (0: heat, 1: cool, 2: auto)"⟩]

/-- Choices out of a list. -/
def enumeration : TypeNode :=
  .leaf ⟨"ENUM", .none, "Enum", none, "enumeration category (int)"⟩

/-- Levels between none and full. -/
def level : TypeNode :=
  .branch ⟨"LEVEL", .command, "Level", some "PERCENT",
    "level category (float, range 0-1, displayed as 0-100%)"⟩ 3
    [.branch ⟨"OPENING", family, "Opening Level", none,
       "opening level of gate, door, window etc."⟩ 3
       [.leaf ⟨"GATE", .command, "Gate Level", none, "gate position"⟩,
        .leaf ⟨"DOOR", .command, "Door Level", none, "door position"⟩,
        .leaf ⟨"WINDOW", .command, "Window Level", none, "window position"⟩,
        .leaf ⟨"BLIND", .command, "Blind Level", none, "blind position"⟩,
        .leaf ⟨"SLAT", .command, "Slat Level", none, "slat position of venetian blind"⟩,
        .leaf ⟨"VALVE", .command, "Valve Level", none, "valve position"⟩],
     .leaf ⟨"BATTERY", .none, "Battery Level", none, "battery level"⟩,
     .leaf ⟨"TANK", .none, "Tank Level", none, "water/fuel tank level"⟩]

/-- Physical quantities. -/
def physical : TypeNode :=
  .branch ⟨"PHYSICAL", .command, "Physical", none, "physical quantities category (float)"⟩ 3
    [.branch ⟨"TEMPERATURE", .command, "Temperature", some "TEMPERATURE",
       "temperature in Kelvin (displayed as Celsius or Fahrenheit)"⟩ 2
       [.branch ⟨"MEASURED", .compatible, "Measured Temp.", none, "measured temperature"⟩ 3
          [.leaf ⟨"FREEZER", .none, "Freezer Temp.", some "TEMPERATURE_FREEZER",
             "measured freezer temperature"⟩,
           .leaf ⟨"FRIDGE", .none, "Fridge Temp.", some "TEMPERATURE_FRIDGE",
             "measured fridge temperature"⟩,
           .leaf ⟨"OUTDOOR", .none, "Outdoor Temp.", some "TEMPERATURE_OUTDOOR",
             "measured outdoor temperature"⟩,
           .leaf ⟨"ROOM", .none, "Room Temp.", some "TEMPERATURE_ROOM",
             "measured room temperature"⟩,
           .leaf ⟨"OVEN", .none, "Oven Temp.", some "TEMPERATURE_OVEN",
             "measured oven temperature"⟩],
        .branch ⟨"SETPOINT", family, "Setpoint Temp.", none, "setpoint temperature"⟩ 3
          [.leaf ⟨"FREEZER", .command, "Freezer Setpoint", some "TEMPERATURE_FREEZER",
             "cooling setpoint for freezer (-30oC - 0oC)"⟩,
           .leaf ⟨"FRIDGE", .command, "Fridge Setpoint", some "TEMPERATURE_FRIDGE",
             "cooling setpoint for fridge (0oC - 20oC)"⟩,
           .leaf ⟨"COOLER", .command, "Cooler Setpoint", some "TEMPERATURE_ROOM",
             "cooling setpoint for hvac (8oC - 30oC)"⟩,
           .leaf ⟨"HEATER", .command, "Heater Setpoint", some "TEMPERATURE_ROOM",
             "heating setpoint for hvac (8oC - 30oC)"⟩,
           .leaf ⟨"OVEN", .command, "Oven Setpoint", some "TEMPERATURE_OVEN",
             "heating setpoint for oven (100oC - 400oC)"⟩]],
     .branch ⟨"PRESSURE", .command, "Pressure", some "PASCAL",
       "pressure in Pascal (displayed as hPa or kPa)"⟩ 2
       [.branch ⟨"MEASURED", .none, "Measured Pressure", none, "measured pressure"⟩ 2
          [.leaf ⟨"ATMOSPHERE", .none, "Atmospheric Pressure", some "PRESSURE_ATMOSPHERIC",
             "measured atmospheric pressure"⟩],
        .leaf ⟨"SETPOINT", .command, "Pressure Setpoint", none, "pressure setpoint"⟩],
     .branch ⟨"VOLTAGE", .command, "Voltage", some "VOLTAGE", "voltage in Volt"⟩ 2
       [.branch ⟨"MEASURED", .none, "Measured Voltage", none, "measured voltage"⟩ 2
          [.leaf ⟨"LOW", .none, "Low Voltage", some "VOLTAGE_LOW", "low voltage up to 50V"⟩,
           .leaf ⟨"MAINS", .none, "Mains Voltage", some "VOLTAGE_MAINS",
             "mains voltage 110V, 230V, 400V"⟩,
           .leaf ⟨"HIGH", .none, "High Voltage", some "VOLTAGE_HIGH", "high voltage"⟩],
        .leaf ⟨"SETPOINT", .command, "Voltage Setpoint", none, "voltage setpoint"⟩],
     .branch ⟨"CURRENT", .command, "Current", some "AMPERE", "current in Ampere"⟩ 2
       [.leaf ⟨"MEASURED", .none, "Measured Current", none, "measured current"⟩,
        .leaf ⟨"SETPOINT", .command, "Current Setpoint", none, "current setpoint"⟩],
     .branch ⟨"POWER", .command, "Power", some "WATT", "power in Watt"⟩ 2
       [.leaf ⟨"MEASURED", .none, "Measured Power", none, "measured power"⟩,
        .leaf ⟨"SETPOINT", .command, "Power Setpoint", none, "power setpoint"⟩],
     .leaf ⟨"ILLUMINANCE", .none, "Illuminance", some "LUX", "illuminance in Lux"⟩]

/-- Concentrations of substances. -/
def concentration : TypeNode :=
  .branch ⟨"CONCENTRATION", .command, "Concentration", none,
    "concentration of substance category (float)"⟩ 3
    [.branch ⟨"RELATIVE_HUMIDITY", .command, "Humidity", some "PERCENT",
       "relative air humidity in percent"⟩ 2
       [.branch ⟨"MEASURED", .none, "Measured Humidity", none, "measured relative air humidity"⟩ 1
          [.leaf ⟨"AIR", .none, "Air Humidity", none, "measured relative humidity of room air"⟩],
        .leaf ⟨"SETPOINT", .command, "Humidity Setpoint", none, "setpoint relative air humidity"⟩],
     .leaf ⟨"VOC", .none, "Volatile Organic", none, "volatile organic components"⟩,
     .leaf ⟨"CARBON_MONOXIDE", .none, "Carbon Monox.", none, "carbon monoxide"⟩,
     .leaf ⟨"CARBON_DIOXIDE", .none, "Carbon Diox.", none, "carbon dioxide"⟩]

/-- Properties of light. -/
def lighting : TypeNode :=
  .branch ⟨"LIGHTING", .command, "Lighting", none,
    "lighting category (float, commands include a transition time)"⟩ 2
    [.leaf ⟨"BRIGHTNESS", .command, "Brightness", some "PERCENT", "light brightness"⟩,
     .leaf ⟨"COLOR_TEMPERATURE", .command, "Color Temp.", some "TEMPERATURE_COLOR",
       "color temperature in Kelvin"⟩,
     .branch ⟨"COLOR_PARAMETER", family, "Color Parameter", some "UNIT_INTERVAL",
       "color parameter, commands include a transition time"⟩ 3
       [.leaf ⟨"CHROMATICITY_X", .command, "Color X", none,
          "color chromaticity x (CIE xyY model)"⟩,
        .leaf ⟨"CHROMATICITY_Y", .command, "Color Y", none,
          "color chromaticity y (CIE xyY model)"⟩,
        .leaf ⟨"HUE", .command, "Hue", none, "color hue"⟩,
        .leaf ⟨"SATURATION", .command, "Saturation", none, "color saturation"⟩]]

/-- Metered quantities. -/
def metering : TypeNode :=
  .branch ⟨"METERING", .none, "Metering", some "COUNTER",
    "metering of electricity, water, gas etc. category (uint)"⟩ 2
    [.branch ⟨"ELECTRIC", .none, "Electric Meter", some "ELECTRIC_METER", "electric meter"⟩ 2
       [.branch ⟨"USAGE", .none, "Energy Usage", none, "usage (OBIS 1.8.0)"⟩ 2
          [.leaf ⟨"PEAK", .none, "Peak Usage", none, "usage during peak hours (OBIS 1.8.1)"⟩,
           .leaf ⟨"OFF_PEAK", .none, "Off-Peak Usage", none,
             "usage during off-peak hours (OBIS 1.8.2)"⟩],
        .branch ⟨"SUPPLY", .none, "Supply", none, "supply (OBIS 2.8.0)"⟩ 2
          [.leaf ⟨"PEAK", .none, "Peak Supply", none, "supply during peak hours (OBIS 2.8.1)"⟩,
           .leaf ⟨"OFF_PEAK", .none, "Off-Peak Supply", none,
             "supply during off-peak hours (OBIS 2.8.2)"⟩]],
     .leaf ⟨"WATER", .none, "Water Meter", none, "water meter"⟩,
     .leaf ⟨"GAS", .none, "Gas Meter", none, "gas meter"⟩]

/-- Relative steps of encoders. -/
def encoder : TypeNode :=
  .branch ⟨"ENCODER", .none, "Encoder", some "STEPS",
    "relative encoder category (int, steps since last message)"⟩ 2
    [.leaf ⟨"ROTARY", .none, "Rotary Knob", none, "rotary knob with detents"⟩,
     .leaf ⟨"WHEEL", .none, "Scroll Wheel", none, "scroll wheel"⟩]

/-- The reference taxonomy. -/
def schema : Schema :=
  { typeBits := 13
    bitCount := 4
    types := [binary, ternary, multistate, enumeration, level, physical, concentration, lighting,
      metering, encoder] }

end PlugTaxonomy.Reference
