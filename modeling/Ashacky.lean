import Ashacky.Support.Bytes
import Ashacky.Support.Machine
import Ashacky.Support.Stores
import Ashacky.Support.Feed
import Ashacky.Support.Effect
import Ashacky.Support.Dictionary
import Ashacky.Support.Brackets
import Ashacky.Support.Lines
import Ashacky.Support.Reader
import Ashacky.Support.Elements
import Ashacky.Support.Base64
import Ashacky.Support.Multitouch
import Ashacky.Support.DelayedWork
import Ashacky.Support.Watchdog
import Ashacky.Support.Progress
import Ashacky.Support.Access
import Ashacky.Support.Announce
import Ashacky.Hid.Packets
import Ashacky.Hid.Transport
import Ashacky.Hid.Invariant
import Ashacky.Hid.Reassembly
import Ashacky.Hid.Answers
import Ashacky.Hid.Relay
import Ashacky.Fido.Cbor
import Ashacky.Fido.Grammar
import Ashacky.Fido.Canonical
import Ashacky.Fido.Traps
import Ashacky.Fido.Authenticator
import Ashacky.Fido.Runs
import Ashacky.Fido.Signing
import Ashacky.Fido.Preflight
import Ashacky.Fido.Exclusion
import Ashacky.Fido.Store
import Ashacky.Fido.Records
import Ashacky.Fido.Sizes
import Ashacky.Fido.Enumeration
import Ashacky.Fido.Service
import Ashacky.Fido.Serialisation
import Ashacky.Fido.Outcome
import Ashacky.Fido.Cancellation
import Ashacky.Fido.Limits
import Ashacky.Control.Json
import Ashacky.Control.Serialization
import Ashacky.Control.Broker
import Ashacky.Control.Channel
import Ashacky.Control.Link
import Ashacky.Control.Sessions
import Ashacky.Control.Clients
import Ashacky.Control.Correlation
import Ashacky.Control.Framing
import Ashacky.Control.Books
import Ashacky.Control.Bookkeeping
import Ashacky.Control.Workers
import Ashacky.Control.Budget
import Ashacky.Control.Failure
import Ashacky.Control.Queue
import Ashacky.Control.Isolation
import Ashacky.Video.Shared
import Ashacky.Video.Surfaces
import Ashacky.Wifi.Elements
import Ashacky.Wifi.Driver
import Ashacky.Wifi.Transitions
import Ashacky.Wifi.Generations
import Ashacky.Wifi.Association
import Ashacky.Wifi.Carrier
import Ashacky.Wifi.Timers
import Ashacky.Wifi.Records
import Ashacky.Wifi.Security
import Ashacky.Wifi.Bridge
import Ashacky.Wifi.Connection
import Ashacky.Wifi.Visibility
import Ashacky.Wifi.Readiness
import Ashacky.Wifi.Execution
import Ashacky.Wifi.Follower
import Ashacky.Wifi.Pages
import Ashacky.Wifi.PageText
import Ashacky.Wifi.Walks
import Ashacky.Devices.Events
import Ashacky.Devices.Radio
import Ashacky.Devices.Intent
import Ashacky.Devices.Choices
import Ashacky.Devices.Bluetooth
import Ashacky.Devices.Mirror
import Ashacky.Devices.Freshness
import Ashacky.Devices.Invalidation
import Ashacky.Devices.BluetoothService
import Ashacky.Devices.Operations
import Ashacky.Devices.Consent
import Ashacky.Devices.Management
import Ashacky.Devices.Announcements
import Ashacky.Devices.Watchdogs
import Ashacky.Session.Control
import Ashacky.Session.Supervisor
import Ashacky.Session.Authority
import Ashacky.Session.Sidecar
import Ashacky.Session.PowerHelper
import Ashacky.Camera.Buffer
import Ashacky.Camera.Frames
import Ashacky.Camera.Lease
import Ashacky.Camera.Service
import Ashacky.Camera.Capture
import Ashacky.Camera.Demand
import Ashacky.Camera.Idle
import Ashacky.Audio.Volume
import Ashacky.Audio.Echo
import Ashacky.Audio.Defaults
import Ashacky.Audio.Monitor
import Ashacky.Input.Trackpad
import Ashacky.Input.Contacts
import Ashacky.Input.Serve
import Ashacky.Input.Release
import Ashacky.Input.Touches
import Ashacky.Input.Replies
import Ashacky.Display.Layout
