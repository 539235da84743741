import Playback.Session.Host

/-!
# Presentations with fixed rules

A presentation that answers by rule, for simulated hosts: it takes sound in a format of its own
choice or not at all, and it refuses the buffer of one picture. Its state is the number of
pictures that it was asked to take so far.
-/

namespace Playback

/-- The format in which a presentation takes sound; what is left open is taken as offered. -/
structure SoundTerms where
  rate : Option Nat := none
  channels : Option Nat := none
  layout : Option Nat := none
  format : SampleFormat := .s16
  /-- Size in bytes of the device's own buffer. -/
  deviceBuffer : Nat := 512
  deriving DecidableEq, Inhabited

/-- The output format for sound that is offered. -/
def SoundTerms.spec (t : SoundTerms) (channels rate layout : Nat) : OutputSpec where
  rate := t.rate.getD rate
  channels := t.channels.getD channels
  layout := t.layout.getD layout
  format := t.format
  deviceBuffer := t.deviceBuffer

/-- The rules of a presentation. -/
structure Presentation where
  /-- How sound is taken; none if it is refused. -/
  sound : Option SoundTerms := some {}
  /-- Number of the picture that is refused, counted from zero. -/
  refused : Option Nat := none
  deriving DecidableEq, Inhabited

namespace Presentation

/-- The answer to an offer of sound. -/
def negotiate (p : Presentation) (channels rate layout asked : Nat) : Option OutputSpec × Nat :=
  (p.sound.map fun t => t.spec channels rate layout, asked)

/-- The answer to a picture that needs a buffer. -/
def allocate {S : Type} (p : Presentation) (_ : VideoFrame S) (asked : Nat) : Bool × Nat :=
  (p.refused != some asked, asked + 1)

end Presentation

end Playback
