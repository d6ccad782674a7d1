import Geoff.Runs
import Geoff.Traces
import Geoff.ByteCursor
import Geoff.AppBuffer
import Geoff.Fields
import Geoff.Expiry
import Geoff.Structs
import Geoff.Ship
import Geoff.Magazine
import Geoff.Player
import Geoff.RockField
import Geoff.WebsockSession
import Geoff.TxStream
import Geoff.TxWake
import Geoff.TxMemory
import Geoff.Universe
import Geoff.Session
import Geoff.RequestReads
import Geoff.Messages
import Geoff.Conversions
import Geoff.Client
import Geoff.RoundTrips
import Geoff.GameFace
import Geoff.Requests
import Geoff.Server
import Geoff.ServerSteps
import Geoff.SessionStore
import Geoff.SessionIds
import Geoff.GameSteps
import Geoff.PlayerEvents
import Geoff.PlayerStore
import Geoff.Collisions
import Geoff.Lives
import Geoff.ShipBounds
import Geoff.RestingShip
import Geoff.DeadPlayer
import Geoff.ConnectionSteps
import Geoff.Company
import Geoff.SessionSteps
import Geoff.Journal
import Geoff.OutgoingStream
import Geoff.TickCounts
import Geoff.ByteOrder
import Geoff.OtherSessions
import Geoff.CollisionBounds
import Geoff.Scores
import Geoff.EncodedNumbers
import Geoff.Builders
import Geoff.ScanMeaning
import Geoff.PlayerSteps
import Geoff.LonePlayer
import Geoff.Viewport
import Geoff.ShipRuns
import Geoff.OnScreen
import Geoff.Flights
import Geoff.Sliding
import Geoff.Kinematics
import Geoff.Blinking
import Geoff.Clipping
import Geoff.Rotation
import Geoff.Contexts
import Geoff.Approach
import Geoff.GameScript
import Geoff.Arrivals
import Geoff.InBase
import Geoff.Paths
import Geoff.HandleRequest
import Geoff.Frames
import Geoff.Pipelines
import Geoff.HttpSession
import Geoff.ServedFiles
import Geoff.Pipelining
import Geoff.HttpMessages
import Geoff.Scrolling
import Geoff.MapView
import Geoff.Beings
import Geoff.Shelter
import Geoff.BaseLives
import Geoff.GameLength
import Geoff.Stock
import Geoff.RockCensus
import Geoff.TickMessages
import Geoff.MessageEvents
import Geoff.Canvas
import Geoff.Mirror
import Geoff.Painting
import Geoff.Replica
import Geoff.Interleavings
import Geoff.Keyboard
import Geoff.Echo
