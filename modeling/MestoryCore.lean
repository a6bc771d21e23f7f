import MestoryCore.Transition.Run
import MestoryCore.Asyncio.Lock
import MestoryCore.Asyncio.Coroutine
import MestoryCore.Asyncio.Machine
import MestoryCore.Python.Except
import MestoryCore.Python.Heap
import MestoryCore.Python.Json
import MestoryCore.Python.JsonText
import MestoryCore.Python.Hex
import MestoryCore.Python.Uuid
import MestoryCore.Permissions
import MestoryCore.Auth.Exception
import MestoryCore.Auth.Document
import MestoryCore.Auth.Client
import MestoryCore.Auth.Load
import MestoryCore.Auth.System
import MestoryCore.Auth.Refinement
import MestoryCore.Auth.Exit
import MestoryCore.Auth.Outage
import MestoryCore.Auth.Throttle
import MestoryCore.Auth.Arrival
import MestoryCore.Auth.Cache
import MestoryCore.Auth.Rotation
import MestoryCore.Auth.Recovery
import MestoryCore.Auth.Objects
import MestoryCore.Auth.Abstraction
import MestoryCore.Auth.Respawn
import MestoryCore.Auth.Claims
import MestoryCore.Auth.Verifier
import MestoryCore.Auth.Acceptance
import MestoryCore.Auth.Reading
import MestoryCore.Auth.Dependencies
import MestoryCore.Auth.Authorization
import MestoryCore.Auth.Service
import MestoryCore.Auth.Authentication
import MestoryCore.Auth.Accounting
import MestoryCore.Auth.Handling
import MestoryCore.Auth.Lifetime
import MestoryCore.Auth.Refusal
import MestoryCore.Auth.Disclosure
import MestoryCore.Auth.Transport
import MestoryCore.Auth.Filter
import MestoryCore.Events.Keys
import MestoryCore.Events.Registry
import MestoryCore.Events.Hierarchy
import MestoryCore.Events.Schemas
import MestoryCore.Events.Publisher
import MestoryCore.Events.Delivery
import MestoryCore.Events.Session
import MestoryCore.Events.Channels
import MestoryCore.Events.Pool
import MestoryCore.Events.Progress
import MestoryCore.Events.Echo
import MestoryCore.Events.Transparency
import MestoryCore.Events.Compatibility
