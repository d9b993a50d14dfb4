/-!
# The names of header fields

A header may hold any fields; these are the ones that the library itself reads or
writes.
-/

namespace VoltageCapture.Key

/-- Size in bytes of the header block ahead of the payload. -/
def headerSize : String := "HDR_SIZE"

/-- Offset of the first payload byte within the observation. -/
def obsOffset : String := "OBS_OFFSET"

/-- Frequency channels in the stream. -/
def channels : String := "NCHAN"

/-- Bits per sample. -/
def bits : String := "NBIT"

/-- Polarisations. -/
def polarisations : String := "NPOL"

/-- Dimensions of a sample: 2 if it is complex. -/
def dimensions : String := "NDIM"

/-- Time samples per packet. -/
def packetSamples : String := "UDP_NSAMP"

/-- Channels per packet. -/
def packetChannels : String := "UDP_NCHAN"

/-- Time samples that share one weight. -/
def weightSamples : String := "WT_NSAMP"

/-- Start of the observation, from which a seed can be derived. -/
def utcStart : String := "UTC_START"

/-- Seed of the test sequences. -/
def seed : String := "SEED"

/-- Period of the test tone, in samples. -/
def sinePeriod : String := "SINE_PERIOD"

/-- All of these names. -/
def all : List String :=
  [headerSize, obsOffset, channels, bits, polarisations, dimensions, packetSamples,
    packetChannels, weightSamples, utcStart, seed, sinePeriod]

end VoltageCapture.Key
